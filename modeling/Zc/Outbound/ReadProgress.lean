import Mathlib.Algebra.GroupWithZero.Nat
import Mathlib.Algebra.Order.Group.Nat
import Mathlib.Tactic.Common
import Zc.Io
import Zc.Lib.Wire

/-!
# Interrupted Shadowsocks reads

`SsReadProgress` infers where the records of a classic AEAD stream end from whether a read filled its
buffer. A reader that always asks for the rest of the current unit gets its transport error back
unmarked exactly before the salt and after a whole record.
-/

namespace zc.outbound

open Poll (Act)
open Wire (segments patience)

inductive SsReadUnit where
  | Salt
  | FirstLength
  | Payload
  | NextLength
  deriving DecidableEq

/-- The unit that follows. -/
def SsReadUnit.next : SsReadUnit → SsReadUnit
  | .Salt => .FirstLength
  | .FirstLength | .NextLength => .Payload
  | .Payload => .NextLength

/-- `partial_read` is the source's `partial`. -/
structure SsReadProgress where
  inner : Wire io.Error
  unit : SsReadUnit
  partial_read : Bool

namespace SsReadProgress

def new (inner : Wire io.Error) : SsReadProgress :=
  ⟨inner, .Salt, false⟩

/-- Whether an error now interrupts a record. -/
def interrupts (progress : SsReadProgress) : Bool :=
  progress.partial_read || progress.unit == .FirstLength || progress.unit == .Payload

def poll_read (remaining : Nat) : Act SsReadProgress io.Error (List UInt8) := do
  if remaining = 0 then pure []
  else do
    let result ← Act.ready (Act.zoom inner (fun progress inner => { progress with inner }) (Wire.poll_read remaining))
    match result with
    | .ok bytes => do
      if bytes.length ≠ 0 then
        Act.modify fun progress => { progress with
          partial_read := bytes.length < remaining
          unit := if bytes.length < remaining then progress.unit else progress.unit.next }
      pure bytes
    | .error error => do
      let progress ← Act.get
      if progress.interrupts then Act.stop (.failed (truncated_read error))
      else Act.stop (.failed error)

end SsReadProgress

/-! ## Readers -/

/-- A length and a payload, with their tags. -/
structure Record where
  length : List UInt8
  payload : List UInt8
  length_ne : length ≠ []
  payload_ne : payload ≠ []

def Record.bytes (record : Record) : List UInt8 :=
  record.length ++ record.payload

/-- The sizes of the units on the wire. -/
def units (salt : List UInt8) (records : List Record) : List Nat :=
  salt.length :: records.flatMap fun record => [record.length.length, record.payload.length]

def wire (salt : List UInt8) (records : List Record) : List UInt8 :=
  salt ++ records.flatMap Record.bytes

/-- The rest of the current unit, or a further length once all units are read. -/
def ask (further : Nat) : List Nat → Nat → Nat
  | [], _ => further
  | size :: units, consumed => if consumed < size then size - consumed else ask further units (consumed - size)

/-- A reader with the number of bytes it has consumed. -/
structure Reader where
  progress : SsReadProgress
  consumed : Nat

/-- A poll with an empty buffer, or with one for the rest of the current unit. -/
inductive Request where
  | empty
  | rest (further : Nat) (hfurther : 0 < further)

def Request.size (units : List Nat) (consumed : Nat) : Request → Nat
  | .empty => 0
  | .rest further _ => ask further units consumed

/-- Polls on until a poll fails, and returns that error with the number of bytes consumed before it. -/
def Reader.run (units : List Nat) : List Request → Reader → Option (io.Error × Nat)
  | [], _ => none
  | request :: requests, reader =>
    match SsReadProgress.poll_read (request.size units reader.consumed) reader.progress with
    | (.ok bytes, progress) => run units requests ⟨progress, reader.consumed + bytes.length⟩
    | (.error (.failed error), _) => some (error, reader.consumed)
    | (.error _, progress) => run units requests ⟨progress, reader.consumed⟩

/-! ## Where a reader stands -/

/-- The unit that a position is in, and whether the unit has been started. -/
def place : List Nat → SsReadUnit → Nat → SsReadUnit × Bool
  | [], unit, _ => (unit, false)
  | size :: units, unit, consumed =>
    if consumed < size then (unit, decide (0 < consumed)) else place units unit.next (consumed - size)

variable {further : Nat}

theorem ask_pos (hfurther : 0 < further) (units : List Nat) (consumed : Nat) : 0 < ask further units consumed := by
  induction units generalizing consumed with
  | nil => exact hfurther
  | cons size units ih =>
    rw [ask]
    split_ifs with hlt
    · exact Nat.sub_pos_of_lt hlt
    · exact ih _

theorem place_zero {units : List Nat} (hpos : ∀ size ∈ units, 0 < size) (unit : SsReadUnit) :
    place units unit 0 = (unit, false) := by
  cases units with
  | nil => rfl
  | cons size units =>
    rw [place, if_pos (hpos size List.mem_cons_self)]
    rfl

/-- A read that fills its buffer ends the unit, and a shorter one starts it. -/
theorem place_add {units : List Nat} (hpos : ∀ size ∈ units, 0 < size) (unit : SsReadUnit) {consumed count : Nat}
    (hcount : 0 < count) (hask : count ≤ ask further units consumed) (hsum : consumed + count ≤ units.sum) :
    place units unit (consumed + count) =
      if count < ask further units consumed then ((place units unit consumed).1, true)
      else ((place units unit consumed).1.next, false) := by
  induction units generalizing unit consumed with
  | nil =>
    rw [List.sum_nil] at hsum
    omega
  | cons size units ih =>
    rw [List.sum_cons] at hsum
    have hrest : ∀ size ∈ units, 0 < size := fun size hsize => hpos size (List.mem_cons_of_mem _ hsize)
    by_cases hlt : consumed < size
    · rw [ask, if_pos hlt] at hask ⊢
      rw [place, place, if_pos hlt]
      by_cases hshort : count < size - consumed
      · rw [if_pos (by omega), if_pos hshort, decide_eq_true (by omega)]
      · have hend : consumed + count - size = 0 := by omega
        rw [if_neg (by omega), if_neg hshort, hend, place_zero hrest]
    · have hsub : consumed + count - size = consumed - size + count := by omega
      rw [ask, if_neg hlt] at hask ⊢
      rw [place, place, if_neg hlt, if_neg (by omega), hsub]
      exact ih hrest _ hask (by omega)

/-! ## Interrupted streams -/

/-- A transport that has not failed. -/
def Calm (reads : List (Answer io.Error (List UInt8))) : Prop :=
  ∀ answer ∈ reads, ∀ error, answer ≠ .failed error

/-- The transport fails once it has given out the rest of the bytes, and the adapter knows the place. -/
structure Reader.Follows (units : List Nat) (bytes : List UInt8) (error : io.Error)
    (calm : List (Answer io.Error (List UInt8))) (reader : Reader) : Prop where
  reads : ∃ rest, reader.progress.inner.reads = calm ++ .failed error :: rest
  unfailed : Calm calm
  left : segments calm = bytes.drop reader.consumed
  below : reader.consumed ≤ bytes.length
  known : place units .Salt reader.consumed = (reader.progress.unit, reader.progress.partial_read)

/-- What one poll for the rest of a unit leads to. -/
inductive Polled (units : List Nat) (bytes : List UInt8) (error : io.Error) (calm : List (Answer io.Error (List UInt8)))
    (reader : Reader) : Except (Poll.Stop io.Error) (List UInt8) × SsReadProgress → Prop
  | read {given : List UInt8} {progress : SsReadProgress} {calm' : List (Answer io.Error (List UInt8))}
    (hfollows : Reader.Follows units bytes error calm' ⟨progress, reader.consumed + given.length⟩)
    (hless : patience calm' < patience calm) : Polled units bytes error calm reader (.ok given, progress)
  | pending {progress : SsReadProgress} {calm' : List (Answer io.Error (List UInt8))}
    (hfollows : Reader.Follows units bytes error calm' ⟨progress, reader.consumed⟩)
    (hless : patience calm' < patience calm) : Polled units bytes error calm reader (.error .pending, progress)
  | failed {progress : SsReadProgress} (hend : reader.consumed = bytes.length) :
    Polled units bytes error calm reader
      (.error (.failed (if reader.progress.interrupts then truncated_read error else error)), progress)

variable {progress : SsReadProgress} {inner : Wire io.Error} {error : io.Error}

namespace SsReadProgress

/-- The adapter after the transport has given out bytes. -/
def advance (progress : SsReadProgress) (inner : Wire io.Error) (remaining : Nat) (given : List UInt8) : SsReadProgress :=
  if given.length ≠ 0 then
    ⟨inner, if given.length < remaining then progress.unit else progress.unit.next, given.length < remaining⟩
  else { progress with inner }

theorem poll_read_of_ok {remaining : Nat} {given : List UInt8} (hremaining : remaining ≠ 0)
    (hinner : Wire.poll_read remaining progress.inner = (.ok given, inner)) :
    poll_read remaining progress = (.ok given, progress.advance inner remaining given) := by
  have hready : Act.ready (Act.zoom SsReadProgress.inner (fun progress inner => { progress with inner })
      (Wire.poll_read remaining)) progress = (.ok (.ok given), { progress with inner }) := by
    simp only [Act.ready, Act.zoom, hinner]
  rw [poll_read, if_neg hremaining, Act.run_bind_of_ok hready, advance]
  dsimp only
  by_cases hlength : given.length ≠ 0
  · rw [if_pos hlength, if_pos hlength]
    rfl
  · rw [if_neg hlength, if_neg hlength]
    rfl

theorem poll_read_of_pending {remaining : Nat} (hremaining : remaining ≠ 0)
    (hinner : Wire.poll_read remaining progress.inner = (.error .pending, inner)) :
    poll_read remaining progress = (.error .pending, { progress with inner }) := by
  have hready : Act.ready (Act.zoom SsReadProgress.inner (fun progress inner => { progress with inner })
      (Wire.poll_read remaining)) progress = (.error .pending, { progress with inner }) := by
    simp only [Act.ready, Act.zoom, hinner]
  rw [poll_read, if_neg hremaining, Act.run_bind_of_error hready]

theorem poll_read_of_failed {remaining : Nat} (hremaining : remaining ≠ 0)
    (hinner : Wire.poll_read remaining progress.inner = (.error (.failed error), inner)) :
    poll_read remaining progress =
      (.error (.failed (if progress.interrupts then truncated_read error else error)), { progress with inner }) := by
  have hready : Act.ready (Act.zoom SsReadProgress.inner (fun progress inner => { progress with inner })
      (Wire.poll_read remaining)) progress = (.ok (.error error), { progress with inner }) := by
    simp only [Act.ready, Act.zoom, hinner]
  have hget : Act.get { progress with inner } =
      ((.ok { progress with inner }, { progress with inner }) : Except (Poll.Stop io.Error) _ × _) := rfl
  have hsame : interrupts { progress with inner } = progress.interrupts := rfl
  rw [poll_read, if_neg hremaining, Act.run_bind_of_ok hready]
  dsimp only
  rw [Act.run_bind_of_ok hget, hsame]
  split_ifs with hinterrupts
  · rfl
  · rfl

end SsReadProgress

/-- A poll that gives out the next bytes of the stream. -/
theorem Reader.Follows.advance {units : List Nat} {bytes : List UInt8} {error : io.Error}
    {calm calm' : List (Answer io.Error (List UInt8))} {reader : Reader} (hfollows : reader.Follows units bytes error calm)
    (hpos : ∀ size ∈ units, 0 < size) (hsum : bytes.length ≤ units.sum) {further : Nat} {given : List UInt8}
    (hgiven : given.length ≤ ask further units reader.consumed) {inner : Wire io.Error} {rest : List (Answer io.Error (List UInt8))}
    (hreads : inner.reads = calm' ++ .failed error :: rest) (hcalm : Calm calm')
    (hsegments : segments calm = given ++ segments calm') :
    Reader.Follows units bytes error calm'
      ⟨reader.progress.advance inner (ask further units reader.consumed) given, reader.consumed + given.length⟩ := by
  have hdrop : bytes.drop reader.consumed = given ++ segments calm' := hfollows.left.symm.trans hsegments
  have hlength : bytes.length - reader.consumed = given.length + (segments calm').length := by
    rw [← List.length_drop, hdrop, List.length_append]
  have hbelow := hfollows.below
  have hleft : segments calm' = bytes.drop (reader.consumed + given.length) := by
    rw [← List.drop_drop, hdrop, List.drop_left]
  have hbelow' : reader.consumed + given.length ≤ bytes.length := by omega
  unfold SsReadProgress.advance
  by_cases hempty : given.length = 0
  · rw [if_neg (not_not_intro hempty)]
    refine ⟨⟨rest, hreads⟩, hcalm, hleft, hbelow', ?_⟩
    change place units .Salt (reader.consumed + given.length) = _
    rw [hempty, Nat.add_zero]
    exact hfollows.known
  · rw [if_pos hempty]
    refine ⟨⟨rest, hreads⟩, hcalm, hleft, hbelow', ?_⟩
    change place units .Salt (reader.consumed + given.length) = _
    rw [place_add hpos _ (Nat.pos_of_ne_zero hempty) hgiven (by omega), hfollows.known]
    by_cases hshort : given.length < ask further units reader.consumed
    · rw [if_pos hshort, if_pos hshort, decide_eq_true hshort]
    · rw [if_neg hshort, if_neg hshort, decide_eq_false hshort]

theorem polled_poll_read {units : List Nat} {bytes : List UInt8} {calm : List (Answer io.Error (List UInt8))}
    {reader : Reader} (hfollows : reader.Follows units bytes error calm) (hpos : ∀ size ∈ units, 0 < size)
    (hsum : bytes.length ≤ units.sum) (hfurther : 0 < further) :
    Polled units bytes error calm reader (SsReadProgress.poll_read (ask further units reader.consumed) reader.progress) := by
  have hask := ask_pos hfurther units reader.consumed
  obtain ⟨rest, hreads⟩ := hfollows.reads
  cases calm with
  | nil =>
    have hinner : Wire.poll_read (ask further units reader.consumed) reader.progress.inner =
        (.error (.failed error), { reader.progress.inner with
          reads := rest
          answers := reader.progress.inner.answers ++ [.failed error] }) := by
      rw [Wire.poll_read, hreads]
      rfl
    rw [SsReadProgress.poll_read_of_failed hask.ne' hinner]
    refine .failed (Nat.le_antisymm hfollows.below ?_)
    exact List.drop_eq_nil_iff.1 hfollows.left.symm
  | cons answer calm =>
    have hcalm : Calm calm := fun answer hanswer => hfollows.unfailed answer (List.mem_cons_of_mem _ hanswer)
    cases answer with
    | failed other => exact absurd rfl (hfollows.unfailed _ List.mem_cons_self other)
    | pending =>
      have hinner : Wire.poll_read (ask further units reader.consumed) reader.progress.inner =
          (.error .pending, { reader.progress.inner with
            reads := calm ++ .failed error :: rest
            answers := reader.progress.inner.answers ++ [.pending] }) := by
        rw [Wire.poll_read, hreads]
        rfl
      rw [SsReadProgress.poll_read_of_pending hask.ne' hinner]
      exact .pending ⟨⟨rest, rfl⟩, hcalm, hfollows.left, hfollows.below, hfollows.known⟩ (by simp [patience, segments])
    | ready segment =>
      by_cases hfits : segment.length ≤ ask further units reader.consumed
      · have hinner : Wire.poll_read (ask further units reader.consumed) reader.progress.inner =
            (.ok segment, { reader.progress.inner with
              reads := calm ++ .failed error :: rest
              answers := reader.progress.inner.answers ++ [.ready segment]
              received := reader.progress.inner.received ++ segment }) := by
          rw [Wire.poll_read, hreads]
          exact if_pos hfits
        rw [SsReadProgress.poll_read_of_ok hask.ne' hinner]
        refine .read (hfollows.advance hpos hsum hfits rfl hcalm rfl) ?_
        simp only [patience, segments, List.length_cons, List.flatMap_cons, List.length_append]
        omega
      · have hinner : Wire.poll_read (ask further units reader.consumed) reader.progress.inner =
            (.ok (segment.take (ask further units reader.consumed)), { reader.progress.inner with
              reads := (.ready (segment.drop (ask further units reader.consumed)) :: calm) ++ .failed error :: rest
              answers := reader.progress.inner.answers ++ [.ready (segment.take (ask further units reader.consumed))]
              received := reader.progress.inner.received ++ segment.take (ask further units reader.consumed) }) := by
          rw [Wire.poll_read, hreads]
          exact if_neg hfits
        rw [SsReadProgress.poll_read_of_ok hask.ne' hinner]
        refine .read (hfollows.advance hpos hsum (List.length_take_le _ _) rfl ?_ ?_) ?_
        · intro answer hanswer
          rcases List.mem_cons.1 hanswer with rfl | hanswer
          · rintro _ ⟨⟩
          · exact hcalm answer hanswer
        · simp only [segments, List.flatMap_cons]
          rw [← List.append_assoc, List.take_append_drop]
        · simp only [patience, segments, List.length_cons, List.flatMap_cons, List.length_append, List.length_drop]
          omega

/-- Whether an error at a place interrupts a record. -/
def marked (place : SsReadUnit × Bool) : Bool :=
  place.2 || place.1 == .FirstLength || place.1 == .Payload

/-- Polls that ask for bytes. -/
def polls (requests : List Request) : Nat :=
  requests.countP fun request => match request with
    | .empty => false
    | .rest _ _ => true

/-- A run fails at the end of what the transport gives out, and fails if it goes on for long enough. -/
theorem Reader.Follows.run {units : List Nat} {bytes : List UInt8} (hpos : ∀ size ∈ units, 0 < size)
    (hsum : bytes.length ≤ units.sum) (requests : List Request) {calm : List (Answer io.Error (List UInt8))}
    {reader : Reader} (hfollows : reader.Follows units bytes error calm) :
    (∀ result consumed, reader.run units requests = some (result, consumed) → consumed = bytes.length ∧
      result = if marked (place units .Salt bytes.length) then truncated_read error else error) ∧
    (patience calm < polls requests → (reader.run units requests).isSome) := by
  induction requests generalizing calm reader with
  | nil =>
    refine ⟨nofun, fun hlt => ?_⟩
    exact absurd hlt (Nat.not_lt_zero _)
  | cons request requests ih =>
    cases request with
    | empty =>
      have hpoll : SsReadProgress.poll_read (Request.empty.size units reader.consumed) reader.progress =
          (.ok [], reader.progress) := rfl
      rw [Reader.run, hpoll]
      exact ih hfollows
    | rest further hfurther =>
      have hpolls : polls (.rest further hfurther :: requests) = polls requests + 1 :=
        List.countP_cons_of_pos rfl
      have hpolled := polled_poll_read hfollows hpos hsum hfurther
      rw [Reader.run, hpolls]
      change Polled _ _ _ _ _ (SsReadProgress.poll_read ((Request.rest further hfurther).size units reader.consumed)
        reader.progress) at hpolled
      generalize SsReadProgress.poll_read ((Request.rest further hfurther).size units reader.consumed) reader.progress =
        polled at hpolled
      cases hpolled with
      | read hnext hless =>
        obtain ⟨hresult, hsome⟩ := ih hnext
        exact ⟨hresult, fun hlt => hsome (by omega)⟩
      | pending hnext hless =>
        obtain ⟨hresult, hsome⟩ := ih hnext
        exact ⟨hresult, fun hlt => hsome (by omega)⟩
      | failed hend =>
        refine ⟨?_, fun _ => rfl⟩
        rintro result consumed hresult
        obtain ⟨rfl, rfl⟩ := Prod.mk.inj (Option.some.inj hresult)
        refine ⟨hend, ?_⟩
        rw [← hend, hfollows.known]
        rfl

/-! ## Record boundaries -/

def recordUnits (records : List Record) : List Nat :=
  records.flatMap fun record => [record.length.length, record.payload.length]

/-- A position before the salt or after a whole record. -/
def Boundary (salt : List UInt8) (records : List Record) (position : Nat) : Prop :=
  position = 0 ∨ ∃ front, front ≠ [] ∧ front <+: records ∧ position = (wire salt front).length

theorem length_wire (salt : List UInt8) (records : List Record) :
    (wire salt records).length = salt.length + (recordUnits records).sum := by
  have hrecords : (records.flatMap Record.bytes).length = (recordUnits records).sum := by
    induction records with
    | nil => rfl
    | cons record records ih =>
      simp only [recordUnits, List.flatMap_cons, List.length_append, List.sum_append, Record.bytes] at ih ⊢
      rw [ih]
      simp
  rw [wire, List.length_append, hrecords]

theorem units_pos {salt : List UInt8} (hsalt : salt ≠ []) (records : List Record) : ∀ size ∈ units salt records, 0 < size := by
  intro size hsize
  rcases List.mem_cons.1 hsize with rfl | hsize
  · exact List.length_pos_iff.2 hsalt
  · obtain ⟨record, -, hsize⟩ := List.mem_flatMap.1 hsize
    simp only [List.mem_cons, List.not_mem_nil, or_false] at hsize
    obtain rfl | rfl := hsize
    · exact List.length_pos_iff.2 record.length_ne
    · exact List.length_pos_iff.2 record.payload_ne

theorem recordUnits_cons (record : Record) (records : List Record) :
    recordUnits (record :: records) = record.length.length :: record.payload.length :: recordUnits records :=
  rfl

/-- From a length on, an error interrupts nothing exactly at the end of a record, and before a length that
    follows a record. -/
theorem marked_place {records : List Record} {unit : SsReadUnit} (hunit : unit = .FirstLength ∨ unit = .NextLength)
    {position : Nat} (hposition : position ≤ (recordUnits records).sum) :
    marked (place (recordUnits records) unit position) = false ↔ unit = .NextLength ∧ position = 0 ∨
      ∃ front, front ≠ [] ∧ front <+: records ∧ position = (recordUnits front).sum := by
  induction records generalizing unit position with
  | nil =>
    have hzero : position = 0 := Nat.le_zero.1 hposition
    have hnone : ¬ ∃ front : List Record, front ≠ [] ∧ front <+: [] ∧ position = (recordUnits front).sum := by
      rintro ⟨front, hne, hfront, -⟩
      exact hne (List.prefix_nil.1 hfront)
    obtain rfl | rfl := hunit
    · exact ⟨nofun, fun h => h.elim nofun fun h => absurd h hnone⟩
    · exact ⟨fun _ => .inl ⟨rfl, hzero⟩, fun _ => rfl⟩
  | cons record records ih =>
    have hlength := List.length_pos_iff.2 record.length_ne
    have hpayload := List.length_pos_iff.2 record.payload_ne
    rw [recordUnits_cons, List.sum_cons, List.sum_cons] at hposition
    have hfront : (∃ front, front ≠ [] ∧ front <+: record :: records ∧ position = (recordUnits front).sum) ↔
        ∃ front, front <+: records ∧ position = record.length.length + record.payload.length + (recordUnits front).sum := by
      constructor
      · rintro ⟨front, hne, hfront, heq⟩
        cases front with
        | nil => exact absurd rfl hne
        | cons first front =>
          obtain ⟨rfl, hrest⟩ := List.cons_prefix_cons.1 hfront
          refine ⟨front, hrest, ?_⟩
          rw [heq, recordUnits_cons, List.sum_cons, List.sum_cons, Nat.add_assoc]
      · rintro ⟨front, hrest, heq⟩
        refine ⟨record :: front, List.cons_ne_nil _ _, List.cons_prefix_cons.2 ⟨rfl, hrest⟩, ?_⟩
        rw [heq, recordUnits_cons, List.sum_cons, List.sum_cons, Nat.add_assoc]
    rw [hfront, recordUnits_cons, place]
    by_cases hfirst : position < record.length.length
    · -- inside the length
      rw [if_pos hfirst]
      have hnone : ¬ ∃ front, front <+: records ∧
          position = record.length.length + record.payload.length + (recordUnits front).sum := by
        rintro ⟨front, -, heq⟩
        omega
      by_cases hzero : position = 0
      · subst hzero
        obtain rfl | rfl := hunit
        · exact ⟨nofun, fun h => h.elim nofun fun h => absurd h hnone⟩
        · exact ⟨fun _ => .inl ⟨rfl, rfl⟩, fun _ => rfl⟩
      · rw [decide_eq_true (by omega)]
        exact ⟨nofun, fun h => h.elim (fun h => absurd h.2 hzero) fun h => absurd h hnone⟩
    have hnext : unit.next = .Payload := by
      obtain rfl | rfl := hunit
      · rfl
      · rfl
    rw [if_neg hfirst, place, hnext]
    by_cases hsecond : position - record.length.length < record.payload.length
    · -- inside the payload
      rw [if_pos hsecond]
      have hmarked : marked (.Payload, decide (0 < position - record.length.length)) = true := Bool.or_true _
      rw [hmarked]
      refine ⟨nofun, ?_⟩
      rintro (⟨-, hzero⟩ | ⟨front, -, heq⟩) <;> omega
    · rw [if_neg hsecond]
      refine (@ih .NextLength (.inr rfl) (position - record.length.length - record.payload.length) (by omega)).trans ?_
      constructor
      · rintro (⟨-, hzero⟩ | ⟨front, -, hrest, heq⟩)
        · exact .inr ⟨[], List.nil_prefix, by rw [recordUnits, List.flatMap_nil, List.sum_nil]; omega⟩
        · exact .inr ⟨front, hrest, by omega⟩
      · rintro (⟨-, hzero⟩ | ⟨front, hrest, heq⟩)
        · omega
        · cases front with
          | nil =>
            rw [recordUnits, List.flatMap_nil, List.sum_nil] at heq
            exact .inl ⟨rfl, by omega⟩
          | cons first front => exact .inr ⟨_, List.cons_ne_nil _ _, hrest, by omega⟩

theorem marked_place_units {salt : List UInt8} (hsalt : salt ≠ []) {records : List Record} {position : Nat}
    (hposition : position ≤ (wire salt records).length) :
    marked (place (units salt records) .Salt position) = false ↔ Boundary salt records position := by
  have hpos := List.length_pos_iff.2 hsalt
  have hunits : units salt records = salt.length :: recordUnits records := rfl
  rw [length_wire] at hposition
  rw [hunits, place, Boundary]
  simp only [length_wire]
  by_cases hfirst : position < salt.length
  · rw [if_pos hfirst]
    have hmarked : marked (.Salt, decide (0 < position)) = decide (0 < position) := by
      cases decide (0 < position) <;> rfl
    rw [hmarked, decide_eq_false_iff_not]
    refine ⟨fun hzero => .inl (by omega), ?_⟩
    rintro (hzero | ⟨front, -, -, heq⟩) <;> omega
  · rw [if_neg hfirst]
    refine (marked_place (.inl rfl) (by omega)).trans ?_
    constructor
    · rintro (⟨hunit, -⟩ | ⟨front, hne, hfront, heq⟩)
      · cases hunit
      · exact .inr ⟨front, hne, hfront, by omega⟩
    · rintro (hzero | ⟨front, hne, hfront, heq⟩)
      · omega
      · exact .inr ⟨front, hne, hfront, by omega⟩

/-- Wherever the stream is cut and however its bytes arrive, a reader that asks for the rest of the
    current unit gets the transport's error after the last byte, as it is at a boundary and marked as
    truncated anywhere else; and it does get it. -/
theorem truncated_unless_boundary {salt : List UInt8} (hsalt : salt ≠ []) (records : List Record) {cut : Nat}
    (hcut : cut ≤ (wire salt records).length) {inner : Wire io.Error} {calm rest : List (Answer io.Error (List UInt8))}
    {error : io.Error} (hreads : inner.reads = calm ++ .failed error :: rest) (hcalm : Calm calm)
    (hsegments : segments calm = (wire salt records).take cut) (requests : List Request) :
    (∀ result consumed, Reader.run (units salt records) requests ⟨.new inner, 0⟩ = some (result, consumed) →
      consumed = cut ∧ (Boundary salt records consumed → result = error) ∧
        (¬ Boundary salt records consumed → result = truncated_read error)) ∧
    (patience calm < polls requests → (Reader.run (units salt records) requests ⟨.new inner, 0⟩).isSome) := by
  have hlength : ((wire salt records).take cut).length = cut := by
    rw [List.length_take, Nat.min_eq_left hcut]
  have hpos := units_pos hsalt records
  have hsum : (units salt records).sum = (wire salt records).length := (length_wire salt records).symm
  have hfollows : Reader.Follows (units salt records) ((wire salt records).take cut) error calm ⟨.new inner, 0⟩ :=
    ⟨⟨rest, hreads⟩, hcalm, hsegments, Nat.zero_le _, place_zero hpos _⟩
  obtain ⟨hresult, hsome⟩ := hfollows.run hpos (by rw [hlength, hsum]; exact hcut) requests
  refine ⟨fun result consumed hrun => ?_, hsome⟩
  obtain ⟨hconsumed, hresult⟩ := hresult result consumed hrun
  rw [hlength] at hconsumed hresult
  subst hconsumed
  refine ⟨rfl, fun hboundary => ?_, fun hboundary => ?_⟩
  · rw [hresult, (marked_place_units hsalt hcut).2 hboundary]
    rfl
  · rw [hresult, Bool.eq_true_of_not_eq_false fun hmarked => hboundary ((marked_place_units hsalt hcut).1 hmarked)]
    rfl

def sampleRecord : Record :=
  ⟨[3], [4, 5], by decide, by decide⟩

/-- The salt and the length of a record in three segments, with an empty read between them. -/
def sampleReads : List (Answer io.Error (List UInt8)) :=
  [.pending, .ready [1], .ready [], .ready [2, 3]]

def sampleWire : Wire io.Error :=
  ⟨sampleReads ++ [.failed (.from .Other)], [], [], [], [], [], [], false⟩

def sampleRequests : List Request :=
  .empty :: List.replicate 8 (.rest 1 Nat.one_pos)

/-- The payload is missing. -/
theorem reset_before_payload : Reader.run (units [1, 2] [sampleRecord]) sampleRequests ⟨.new sampleWire, 0⟩ =
    some (truncated_read (.from .Other), 3) := by
  have hsalt : ([1, 2] : List UInt8) ≠ [] := by decide
  have hcut : 3 ≤ (wire [1, 2] [sampleRecord]).length := by decide
  have hcalm : Calm sampleReads := by simp [Calm, sampleReads]
  have hsegments : segments sampleReads = (wire [1, 2] [sampleRecord]).take 3 := rfl
  have hinside : ¬ Boundary [1, 2] [sampleRecord] 3 := by
    rw [← marked_place_units hsalt hcut]
    decide
  obtain ⟨hresult, hsome⟩ :=
    truncated_unless_boundary hsalt [sampleRecord] hcut (show sampleWire.reads = sampleReads ++ .failed (.from .Other) :: [] from rfl) hcalm hsegments sampleRequests
  obtain ⟨⟨result, consumed⟩, hrun⟩ := Option.isSome_iff_exists.1 (hsome (by decide))
  obtain ⟨rfl, -, hmarked⟩ := hresult result consumed hrun
  rw [hrun, hmarked hinside]

end zc.outbound
