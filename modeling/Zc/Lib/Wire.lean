import Zc.Lib.Poll

/-!
# A byte transport

The other side of a transport is a script: what each further call on it is answered with. A run makes
finitely many calls, so every behaviour of a transport in a run is that of some script. A read gives
out the segment that arrives next, as much of it as fits, and a write takes some of the offered bytes.
-/

open Poll (Act)

/-- What a call on the transport is answered with. -/
inductive Answer (ε α : Type) where
  | pending
  | failed (error : ε)
  | ready (value : α)

/-- The answers still to come, and what has passed so far: how reads were answered, and the bytes that came
    and went. An empty segment is the end of the stream. -/
structure Wire (ε : Type) where
  reads : List (Answer ε (List UInt8))
  writes : List (Answer ε Nat)
  flushes : List (Answer ε Unit)
  shutdowns : List (Answer ε Unit)
  answers : List (Answer ε (List UInt8))
  received : List UInt8
  sent : List UInt8
  shut : Bool

namespace Wire

variable {ε : Type}

/-- Reads at most `capacity` bytes. -/
def poll_read (capacity : Nat) : Act (Wire ε) ε (List UInt8) := fun wire =>
  match wire.reads with
  | [] => (.error .pending, { wire with answers := wire.answers ++ [.pending] })
  | .pending :: reads => (.error .pending, { wire with reads, answers := wire.answers ++ [.pending] })
  | .failed error :: reads =>
    (.error (.failed error), { wire with reads, answers := wire.answers ++ [.failed error] })
  | .ready segment :: reads =>
    if segment.length ≤ capacity then
      (.ok segment, { wire with
        reads
        answers := wire.answers ++ [.ready segment]
        received := wire.received ++ segment })
    else
      (.ok (segment.take capacity), { wire with
        reads := .ready (segment.drop capacity) :: reads
        answers := wire.answers ++ [.ready (segment.take capacity)]
        received := wire.received ++ segment.take capacity })

/-- Takes a number of bytes from the front of the data. -/
def poll_write (data : List UInt8) : Act (Wire ε) ε Nat := fun wire =>
  match wire.writes with
  | [] => (.error .pending, wire)
  | .pending :: writes => (.error .pending, { wire with writes })
  | .failed error :: writes => (.error (.failed error), { wire with writes })
  | .ready count :: writes =>
    (.ok (min count data.length), { wire with writes, sent := wire.sent ++ data.take count })

def poll_flush : Act (Wire ε) ε Unit := fun wire =>
  match wire.flushes with
  | [] => (.error .pending, wire)
  | .pending :: flushes => (.error .pending, { wire with flushes })
  | .failed error :: flushes => (.error (.failed error), { wire with flushes })
  | .ready _ :: flushes => (.ok (), { wire with flushes })

def poll_shutdown : Act (Wire ε) ε Unit := fun wire =>
  match wire.shutdowns with
  | [] => (.error .pending, wire)
  | .pending :: shutdowns => (.error .pending, { wire with shutdowns })
  | .failed error :: shutdowns => (.error (.failed error), { wire with shutdowns })
  | .ready _ :: shutdowns => (.ok (), { wire with shutdowns, shut := true })

/-! ## What a call changes -/

/-- The bytes of the segments that arrive. -/
def segments (reads : List (Answer ε (List UInt8))) : List UInt8 :=
  reads.flatMap fun answer => match answer with
    | .ready segment => segment
    | _ => []

/-- A number of reads after which the transport has nothing left to give out. -/
def patience (reads : List (Answer ε (List UInt8))) : Nat :=
  reads.length + (segments reads).length

/-- A read leaves the sending side as it is, and gives out the next bytes that arrive. -/
structure Reads (wire wire' : Wire ε) (bytes : List UInt8) : Prop where
  received : wire'.received = wire.received ++ bytes
  segments : segments wire.reads = bytes ++ segments wire'.reads
  patience : patience wire'.reads < patience wire.reads ∨ wire.reads = [] ∧ wire'.reads = []
  script : wire'.reads.length ≤ wire.reads.length
  writes : wire'.writes = wire.writes
  flushes : wire'.flushes = wire.flushes
  shutdowns : wire'.shutdowns = wire.shutdowns
  sent : wire'.sent = wire.sent
  shut : wire'.shut = wire.shut

variable {capacity : Nat} {wire : Wire ε} {early : Poll.Stop ε → Wire ε → Prop}

theorem wp_poll_read (hcapacity : 0 < capacity) {post : List UInt8 → Wire ε → Prop}
    (hpost : ∀ bytes wire', bytes.length ≤ capacity → Reads wire wire' bytes → post bytes wire')
    (hpending : ∀ wire', Reads wire wire' [] → early .pending wire')
    (hfailed : ∀ error wire', Reads wire wire' [] → early (.failed error) wire') :
    Act.wp (poll_read capacity) post early wire := by
  have hnil : wire.received = wire.received ++ [] := (List.append_nil _).symm
  have hshorter : ∀ {answer reads}, wire.reads = answer :: reads → reads.length ≤ wire.reads.length := by
    intro answer reads hreads
    rw [hreads]
    exact Nat.le_succ _
  unfold Act.wp poll_read
  cases hreads : wire.reads with
  | nil => exact hpending _ ⟨hnil, congrArg segments hreads, .inr ⟨hreads, rfl⟩, Nat.zero_le _, rfl, rfl, rfl, rfl, rfl⟩
  | cons answer reads =>
    cases answer with
    | pending =>
      refine hpending _ ⟨hnil, (congrArg segments hreads).trans rfl, .inl ?_, hshorter hreads, rfl, rfl, rfl, rfl, rfl⟩
      simp [patience, segments, hreads]
    | failed error =>
      refine hfailed error _ ⟨hnil, (congrArg segments hreads).trans rfl, .inl ?_, hshorter hreads, rfl, rfl, rfl, rfl, rfl⟩
      simp [patience, segments, hreads]
    | ready segment =>
      dsimp only
      split_ifs with hfits
      · refine hpost _ _ hfits ⟨rfl, congrArg segments hreads, .inl ?_, hshorter hreads, rfl, rfl, rfl, rfl, rfl⟩
        simp only [patience, segments, hreads, List.length_cons, List.flatMap_cons, List.length_append]
        omega
      · refine hpost _ _ (List.length_take_le _ _) ⟨rfl, ?_, .inl ?_, Nat.le_of_eq (congrArg List.length hreads).symm, rfl, rfl, rfl, rfl, rfl⟩
        · rw [hreads]
          simp only [segments, List.flatMap_cons]
          rw [← List.append_assoc, List.take_append_drop]
        · simp only [patience, segments, hreads, List.length_cons, List.flatMap_cons, List.length_append, List.length_drop]
          omega

/-- How the reads of a wire were answered, with the one more that just returned. -/
theorem wp_poll_read_answers : Act.wp (poll_read capacity)
    (fun bytes wire' => wire'.answers = wire.answers ++ [.ready bytes])
    (fun stop wire' => match stop with
      | .failed error => wire'.answers = wire.answers ++ [.failed error]
      | _ => wire'.answers = wire.answers ++ [.pending]) wire := by
  unfold Act.wp poll_read
  cases hreads : wire.reads with
  | nil => rfl
  | cons answer reads =>
    cases answer with
    | pending => rfl
    | failed error => rfl
    | ready segment =>
      dsimp only
      split_ifs
      · rfl
      · rfl

/-- The bytes that arrive before the stream ends or fails. -/
def arriving : List (Answer ε (List UInt8)) → List UInt8
  | [] => []
  | .pending :: reads => arriving reads
  | .failed _ :: _ => []
  | .ready segment :: reads => if segment.isEmpty then [] else segment ++ arriving reads

/-- Whether the stream ends or fails. -/
def ends : List (Answer ε (List UInt8)) → Bool
  | [] => false
  | .pending :: reads => ends reads
  | .failed _ :: _ => true
  | .ready segment :: reads => if segment.isEmpty then true else ends reads

/-- A read gives out the next bytes that arrive, and no bytes when there are none left. -/
theorem wp_poll_read_arriving (hcapacity : 0 < capacity) : Act.wp (poll_read capacity)
    (fun bytes wire' => if bytes.isEmpty then arriving wire.reads = []
      else arriving wire.reads = bytes ++ arriving wire'.reads ∧ ends wire'.reads = ends wire.reads)
    (fun stop wire' => match stop with
      | .pending => arriving wire.reads = arriving wire'.reads ∧ ends wire'.reads = ends wire.reads
      | _ => arriving wire.reads = []) wire := by
  unfold Act.wp poll_read
  cases hreads : wire.reads with
  | nil => exact ⟨rfl, rfl⟩
  | cons answer reads =>
    cases answer with
    | pending => exact ⟨rfl, rfl⟩
    | failed error => rfl
    | ready segment =>
      dsimp only
      by_cases hfits : segment.length ≤ capacity
      · rw [if_pos hfits]
        dsimp only
        rw [arriving, ends]
        split_ifs
        · rfl
        · exact ⟨rfl, rfl⟩
      · rw [if_neg hfits]
        have hsome : segment.isEmpty = false := by
          cases segment with
          | nil => exact absurd (Nat.zero_le _) hfits
          | cons byte segment => rfl
        have htaken : (segment.take capacity).isEmpty = false := by
          rw [Bool.eq_false_iff, Ne, List.isEmpty_iff, List.take_eq_nil_iff, not_or]
          refine ⟨Nat.ne_of_gt hcapacity, ?_⟩
          rintro rfl
          cases hsome
        have hleft : (segment.drop capacity).isEmpty = false := by
          rw [Bool.eq_false_iff, Ne, List.isEmpty_iff, List.drop_eq_nil_iff]
          exact hfits
        simp only [arriving, ends, hsome, htaken, hleft, Bool.false_eq_true, if_false, and_true]
        rw [← List.append_assoc, List.take_append_drop]

/-- A transport whose writes do not fail. -/
structure Calm (wire : Wire ε) : Prop where
  writes : ∀ answer ∈ wire.writes, answer = .pending ∨ ∃ count, 0 < count ∧ answer = .ready count
  flushes : ∀ answer ∈ wire.flushes, answer = .pending ∨ answer = .ready ()

theorem Calm.of_writes (hcalm : Calm wire) {answer : Answer ε Nat} {writes : List (Answer ε Nat)} {sent : List UInt8}
    (hwrites : wire.writes = answer :: writes) : Calm { wire with writes, sent } :=
  ⟨fun answer hanswer => hcalm.writes answer (hwrites ▸ List.mem_cons_of_mem _ hanswer), hcalm.flushes⟩

theorem Calm.of_flushes (hcalm : Calm wire) {answer : Answer ε Unit} {flushes : List (Answer ε Unit)}
    (hflushes : wire.flushes = answer :: flushes) : Calm { wire with flushes } :=
  ⟨hcalm.writes, fun answer hanswer => hcalm.flushes answer (hflushes ▸ List.mem_cons_of_mem _ hanswer)⟩

/-- A call on the sending side leaves the receiving side as it is, and sends the bytes it takes. -/
structure Sends (wire wire' : Wire ε) (bytes : List UInt8) : Prop where
  sent : wire'.sent = wire.sent ++ bytes
  reads : wire'.reads = wire.reads
  answers : wire'.answers = wire.answers
  received : wire'.received = wire.received
  shut : wire'.shut = wire.shut
  calm : Calm wire → Calm wire'

theorem Sends.refl (wire : Wire ε) : Sends wire wire [] :=
  ⟨(List.append_nil _).symm, rfl, rfl, rfl, rfl, fun hcalm => hcalm⟩

theorem Sends.trans {wire' wire'' : Wire ε} {bytes bytes' : List UInt8} (hsends : Sends wire wire' bytes)
    (hsends' : Sends wire' wire'' bytes') : Sends wire wire'' (bytes ++ bytes') := by
  refine ⟨?_, hsends'.reads.trans hsends.reads, hsends'.answers.trans hsends.answers, hsends'.received.trans hsends.received,
    hsends'.shut.trans hsends.shut, fun hcalm => hsends'.calm (hsends.calm hcalm)⟩
  rw [hsends'.sent, hsends.sent, List.append_assoc]

theorem wp_poll_write {data : List UInt8} {post : Nat → Wire ε → Prop}
    (hpost : ∀ count wire', count ≤ data.length → Sends wire wire' (data.take count) → post count wire')
    (hpending : ∀ wire', Sends wire wire' [] → early .pending wire')
    (hfailed : ∀ error wire', Sends wire wire' [] → early (.failed error) wire') :
    Act.wp (poll_write data) post early wire := by
  have hnil : wire.sent = wire.sent ++ [] := (List.append_nil _).symm
  unfold Act.wp poll_write
  cases hwrites : wire.writes with
  | nil => exact hpending wire (Sends.refl wire)
  | cons answer writes =>
    cases answer with
    | pending => exact hpending _ ⟨hnil, rfl, rfl, rfl, rfl, fun hcalm => hcalm.of_writes hwrites⟩
    | failed error => exact hfailed error _ ⟨hnil, rfl, rfl, rfl, rfl, fun hcalm => hcalm.of_writes hwrites⟩
    | ready count =>
      refine hpost _ _ (Nat.min_le_right _ _) ⟨?_, rfl, rfl, rfl, rfl, fun hcalm => hcalm.of_writes hwrites⟩
      rw [List.take_eq_take_min]

/-- A write fails, or takes nothing, only on a transport where writes fail. -/
theorem wp_poll_write_broken {data : List UInt8} (hdata : data ≠ []) : Act.wp (poll_write data)
    (fun count _ => count = 0 → ¬ Calm wire) (fun stop _ => stop = .pending ∨ ¬ Calm wire) wire := by
  unfold Act.wp poll_write
  cases hwrites : wire.writes with
  | nil => exact .inl rfl
  | cons answer writes =>
    have hfirst : Calm wire → answer = .pending ∨ ∃ count, 0 < count ∧ answer = .ready count :=
      fun hcalm => hcalm.writes answer (hwrites ▸ List.mem_cons_self)
    cases answer with
    | pending => exact .inl rfl
    | failed error =>
      refine .inr fun hcalm => ?_
      rcases hfirst hcalm with heq | ⟨_, -, heq⟩
      · cases heq
      · cases heq
    | ready count =>
      intro hzero hcalm
      rcases hfirst hcalm with heq | ⟨count', hpos, heq⟩
      · cases heq
      · obtain rfl := Answer.ready.inj heq
        have hlength := List.length_pos_iff.2 hdata
        omega

theorem wp_poll_flush {post : Unit → Wire ε → Prop} (hpost : ∀ wire', Sends wire wire' [] → post () wire')
    (hpending : ∀ wire', Sends wire wire' [] → early .pending wire')
    (hfailed : ∀ error wire', Sends wire wire' [] → early (.failed error) wire') :
    Act.wp poll_flush post early wire := by
  have hnil : wire.sent = wire.sent ++ [] := (List.append_nil _).symm
  unfold Act.wp poll_flush
  cases hflushes : wire.flushes with
  | nil => exact hpending wire (Sends.refl wire)
  | cons answer flushes =>
    cases answer with
    | pending => exact hpending _ ⟨hnil, rfl, rfl, rfl, rfl, fun hcalm => hcalm.of_flushes hflushes⟩
    | failed error => exact hfailed error _ ⟨hnil, rfl, rfl, rfl, rfl, fun hcalm => hcalm.of_flushes hflushes⟩
    | ready _ => exact hpost _ ⟨hnil, rfl, rfl, rfl, rfl, fun hcalm => hcalm.of_flushes hflushes⟩

theorem wp_poll_flush_broken : Act.wp poll_flush (fun _ _ => True)
    (fun stop _ => stop = .pending ∨ ¬ Calm wire) wire := by
  unfold Act.wp poll_flush
  cases hflushes : wire.flushes with
  | nil => exact .inl rfl
  | cons answer flushes =>
    cases answer with
    | pending => exact .inl rfl
    | failed error =>
      refine .inr fun hcalm => ?_
      rcases hcalm.flushes _ (hflushes ▸ List.mem_cons_self) with heq | heq
      · cases heq
      · cases heq
    | ready _ => trivial

theorem wp_poll_shutdown {post : Unit → Wire ε → Prop}
    (hpost : ∀ wire', wire'.sent = wire.sent → wire'.reads = wire.reads → wire'.answers = wire.answers → wire'.received = wire.received → wire'.shut = true → post () wire')
    (hpending : ∀ wire', Sends wire wire' [] → early .pending wire')
    (hfailed : ∀ error wire', Sends wire wire' [] → early (.failed error) wire') :
    Act.wp poll_shutdown post early wire := by
  have hnil : wire.sent = wire.sent ++ [] := (List.append_nil _).symm
  unfold Act.wp poll_shutdown
  cases hshutdowns : wire.shutdowns with
  | nil => exact hpending wire (Sends.refl wire)
  | cons answer shutdowns =>
    cases answer with
    | pending => exact hpending _ ⟨hnil, rfl, rfl, rfl, rfl, fun hcalm => ⟨hcalm.writes, hcalm.flushes⟩⟩
    | failed error => exact hfailed error _ ⟨hnil, rfl, rfl, rfl, rfl, fun hcalm => ⟨hcalm.writes, hcalm.flushes⟩⟩
    | ready _ => exact hpost _ rfl rfl rfl rfl rfl

end Wire
