import Zc.Error
import Zc.Lib.History
import Zc.Lib.Wire

/-!
# The idle time-out

`ActiveIo` notes when bytes move, on either side and in either direction, and `idle_expired` sleeps
until `IDLE_TIMEOUT` after the time noted when it went to sleep. `forward_http` and `transfer` run
a transfer and `idle_expired` side by side and end with the first that ends.
-/

namespace zc.runtime

/-- In nanoseconds, as every instant here. -/
def IDLE_TIMEOUT : Nat := 15 * 60 * 1000000000

/-! ## Calls on a stream -/

/-- A call on an `ActiveIo` with what the stream behind it answered. A read tells how much of the buffer was filled before
    and after it. -/
inductive Call where
  | poll_read (before after : Nat) (answer : Answer Error Unit)
  | poll_fill_buf (answer : Answer Error (List UInt8))
  | consume (amount : Nat)
  | poll_write (answer : Answer Error Nat)
  | poll_flush (answer : Answer Error Unit)
  | poll_shutdown (answer : Answer Error Unit)

/-- Whether the call runs `touch`. -/
def Call.touches : Call → Bool
  | .poll_read before after (.ready ()) => decide (before < after)
  | .consume amount => decide (0 < amount)
  | .poll_write (.ready count) => decide (0 < count)
  | _ => false

/-! ## The future -/

/-- Where `idle_expired` stands: before its next look at the clock, asleep, or returned. -/
inductive Idle where
  | top
  | sleeping (deadline : Nat)
  | done
  deriving DecidableEq

/-- What a poll does, turn by turn. The task that polls is the one that moves bytes, so neither the clock nor the
    note changes meanwhile. -/
def idle_expired (now last_activity : Nat) : Nat → Idle → Option Idle
  | 0, _ => none
  | fuel + 1, .top => idle_expired now last_activity fuel (.sleeping (last_activity + IDLE_TIMEOUT))
  | fuel + 1, .sleeping deadline =>
    if now < deadline then some (.sleeping deadline)
    else if IDLE_TIMEOUT ≤ now - last_activity then some .done
    else idle_expired now last_activity fuel .top
  | _ + 1, .done => some .done

variable {now last_activity fuel : Nat}

theorem idle_expired_top (hfuel : 2 ≤ fuel) :
    idle_expired now last_activity fuel .top =
      if now < last_activity + IDLE_TIMEOUT then some (.sleeping (last_activity + IDLE_TIMEOUT)) else some .done := by
  obtain ⟨fuel, rfl⟩ := Nat.exists_eq_add_of_le' hfuel
  rw [idle_expired, idle_expired]
  by_cases hlt : now < last_activity + IDLE_TIMEOUT
  · rw [if_pos hlt, if_pos hlt]
  · rw [if_neg hlt, if_neg hlt, if_pos (by omega)]

/-- A poll ends after at most one look at a deadline that is stale. -/
theorem idle_expired_sleeping {deadline : Nat} (hfuel : 3 ≤ fuel) :
    idle_expired now last_activity fuel (.sleeping deadline) =
      if now < deadline then some (.sleeping deadline)
      else if now < last_activity + IDLE_TIMEOUT then some (.sleeping (last_activity + IDLE_TIMEOUT)) else some .done := by
  obtain ⟨fuel, rfl⟩ := Nat.exists_eq_add_of_le' hfuel
  rw [idle_expired, idle_expired_top (Nat.le_add_left 2 fuel)]
  by_cases hsleeping : now < deadline
  · rw [if_pos hsleeping, if_pos hsleeping]
  · rw [if_neg hsleeping, if_neg hsleeping]
    by_cases hlt : now < last_activity + IDLE_TIMEOUT
    · have hpos : 0 < IDLE_TIMEOUT := by decide
      rw [if_neg (by omega)]
    · rw [if_pos (by omega), if_neg hlt]

theorem idle_expired_of_le {fuel' : Nat} (hle : fuel ≤ fuel') {idle idle' : Idle}
    (hpoll : idle_expired now last_activity fuel idle = some idle') :
    idle_expired now last_activity fuel' idle = some idle' := by
  induction fuel generalizing fuel' idle with
  | zero => cases hpoll
  | succ fuel ih =>
    obtain ⟨fuel', rfl⟩ := Nat.exists_eq_succ_of_ne_zero (show fuel' ≠ 0 by omega)
    have hle' : fuel ≤ fuel' := Nat.le_of_succ_le_succ hle
    cases idle with
    | top => exact ih hle' hpoll
    | done => exact hpoll
    | sleeping deadline =>
      rw [idle_expired] at hpoll ⊢
      split_ifs at hpoll ⊢
      · exact hpoll
      · exact hpoll
      · exact ih hle' hpoll

/-! ## A transfer with its time-out -/

inductive End where
  /-- The transfer itself returned. -/
  | finished
  /-- `Err(IdleExpired)`, at this instant. -/
  | expired (instant : Nat)
  deriving DecidableEq

/-- `activity` has the instants of the calls that moved bytes, after the one at which the clock was made. -/
structure Transfer where
  now : Nat
  last_activity : Nat
  idle : Idle
  ended : Option End
  activity : List Nat

def Transfer.start (now : Nat) : Transfer where
  now
  last_activity := now
  idle := .top
  ended := none
  activity := [now]

inductive Turn where
  /-- Time passes. -/
  | advance (instant : Nat)
  /-- The transfer calls the client's or the outbound's side. -/
  | client (call : Call)
  | upstream (call : Call)
  | poll
  | finish

/-- The instant at which the runtime polls `idle_expired` again: at once, or when its timer is due. -/
def Idle.wake (now : Nat) : Idle → Nat
  | .sleeping deadline => deadline
  | _ => now

namespace Transfer

def call (transfer : Transfer) (call : Call) : Transfer :=
  if call.touches then
    { transfer with last_activity := transfer.now, activity := transfer.activity ++ [transfer.now] }
  else transfer

/-- After a poll that leaves the future as it stands. -/
def polled (transfer : Transfer) (idle : Idle) : Transfer :=
  { transfer with idle, ended := if idle = .done then some (.expired transfer.now) else none }

/-- Nothing happens after the end. The timer is exact: time does not pass the instant at which it is due before the future
    is polled. -/
inductive Step : Transfer → Turn → Transfer → Prop where
  | advance {transfer : Transfer} {instant : Nat} : transfer.ended = none → transfer.now ≤ instant →
      instant ≤ transfer.idle.wake transfer.now → Step transfer (.advance instant) { transfer with now := instant }
  | client {transfer : Transfer} (io : Call) : transfer.ended = none → Step transfer (.client io) (transfer.call io)
  | upstream {transfer : Transfer} (io : Call) : transfer.ended = none → Step transfer (.upstream io) (transfer.call io)
  | poll {transfer : Transfer} {fuel : Nat} {idle : Idle} : transfer.ended = none →
      idle_expired transfer.now transfer.last_activity fuel transfer.idle = some idle → Step transfer .poll (transfer.polled idle)
  | finish {transfer : Transfer} : transfer.ended = none → Step transfer .finish { transfer with ended := some .finished }

end Transfer

/-- The runs of a transfer that starts at an instant. -/
abbrev Transfers (start : Nat) : List Turn → Transfer → Prop :=
  History (Transfer.start start) fun _ => Transfer.Step

variable {transfer : Transfer}

namespace Transfer

/-- The note is the last activity, and the future never sleeps beyond its time-out. -/
structure Sound (transfer : Transfer) : Prop where
  noted : transfer.last_activity ∈ transfer.activity
  latest : ∀ instant ∈ transfer.activity, instant ≤ transfer.last_activity
  past : transfer.last_activity ≤ transfer.now
  awake : transfer.ended = none → transfer.now ≤ transfer.last_activity + IDLE_TIMEOUT ∧ transfer.idle ≠ .done ∧
    ∀ deadline, transfer.idle = .sleeping deadline → transfer.now ≤ deadline ∧ deadline ≤ transfer.last_activity + IDLE_TIMEOUT
  expired : ∀ instant, transfer.ended = some (.expired instant) → instant = transfer.last_activity + IDLE_TIMEOUT

theorem Sound.start (now : Nat) : (Transfer.start now).Sound where
  noted := List.mem_singleton.2 rfl
  latest := by
    intro instant hmem
    rw [List.mem_singleton.1 hmem]
    exact Nat.le_refl _
  past := Nat.le_refl _
  awake := fun _ => ⟨Nat.le_add_right _ _, nofun, nofun⟩
  expired := nofun

theorem Sound.call (hsound : transfer.Sound) (hrunning : transfer.ended = none) (io : Call) :
    (transfer.call io).Sound := by
  unfold Transfer.call
  by_cases htouches : io.touches = true
  · rw [if_pos htouches]
    obtain ⟨hnow, hidle, hsleeping⟩ := hsound.awake hrunning
    have hpast := hsound.past
    refine ⟨by simp, ?_, Nat.le_refl _, ?_, ?_⟩
    · intro instant hmem
      rcases List.mem_append.1 hmem with hmem | hmem
      · exact Nat.le_trans (hsound.latest instant hmem) hpast
      · exact Nat.le_of_eq (List.mem_singleton.1 hmem)
    · intro _
      refine ⟨Nat.le_add_right _ _, hidle, fun deadline hdeadline => ?_⟩
      obtain ⟨hdue, hbound⟩ := hsleeping deadline hdeadline
      refine ⟨hdue, ?_⟩
      show deadline ≤ transfer.now + IDLE_TIMEOUT
      omega
    · intro instant hended
      rw [show _ = none from hrunning] at hended
      cases hended
  · rw [if_neg htouches]
    exact hsound

/-- At the time-out a poll ends the future, and before it the future sleeps on until it is due. -/
theorem Sound.poll_eq (hsound : transfer.Sound) (hrunning : transfer.ended = none) (hfuel : 3 ≤ fuel) :
    ∃ idle, idle_expired transfer.now transfer.last_activity fuel transfer.idle = some idle ∧
      (idle = .done ∧ transfer.now = transfer.last_activity + IDLE_TIMEOUT ∨
        transfer.now < transfer.last_activity + IDLE_TIMEOUT ∧ ∃ deadline, idle = .sleeping deadline ∧ transfer.now < deadline ∧
          deadline ≤ transfer.last_activity + IDLE_TIMEOUT) := by
  obtain ⟨hnow, hidle, hsleeping⟩ := hsound.awake hrunning
  -- Both where the future starts over and where it wakes, the time-out decides.
  have hdecide : ∃ idle, (if transfer.now < transfer.last_activity + IDLE_TIMEOUT then
        some (Idle.sleeping (transfer.last_activity + IDLE_TIMEOUT)) else some .done) = some idle ∧
      (idle = .done ∧ transfer.now = transfer.last_activity + IDLE_TIMEOUT ∨
        transfer.now < transfer.last_activity + IDLE_TIMEOUT ∧ ∃ deadline, idle = .sleeping deadline ∧ transfer.now < deadline ∧
          deadline ≤ transfer.last_activity + IDLE_TIMEOUT) := by
    by_cases hlt : transfer.now < transfer.last_activity + IDLE_TIMEOUT
    · rw [if_pos hlt]
      exact ⟨_, rfl, .inr ⟨hlt, _, rfl, hlt, Nat.le_refl _⟩⟩
    · rw [if_neg hlt]
      exact ⟨_, rfl, .inl ⟨rfl, by omega⟩⟩
  cases hphase : transfer.idle with
  | done => exact absurd hphase hidle
  | top =>
    rw [idle_expired_top (by omega)]
    exact hdecide
  | sleeping deadline =>
    obtain ⟨-, hbound⟩ := hsleeping deadline hphase
    rw [idle_expired_sleeping hfuel]
    by_cases hasleep : transfer.now < deadline
    · rw [if_pos hasleep]
      exact ⟨_, rfl, .inr ⟨by omega, deadline, rfl, hasleep, hbound⟩⟩
    · rw [if_neg hasleep]
      exact hdecide

theorem Sound.poll_cases (hsound : transfer.Sound) (hrunning : transfer.ended = none) {idle : Idle}
    (hpoll : idle_expired transfer.now transfer.last_activity fuel transfer.idle = some idle) :
    idle = .done ∧ transfer.now = transfer.last_activity + IDLE_TIMEOUT ∨
      transfer.now < transfer.last_activity + IDLE_TIMEOUT ∧ ∃ deadline, idle = .sleeping deadline ∧ transfer.now < deadline ∧
        deadline ≤ transfer.last_activity + IDLE_TIMEOUT := by
  obtain ⟨idle', hpoll', hcases⟩ := hsound.poll_eq hrunning (Nat.le_max_right fuel 3)
  rw [idle_expired_of_le (Nat.le_max_left fuel 3) hpoll] at hpoll'
  cases hpoll'
  exact hcases

theorem Sound.step {transfer next : Transfer} {turn : Turn} (hsound : transfer.Sound) (hstep : Step transfer turn next) : next.Sound := by
  cases hstep with
  | @advance instant hrunning hlater hwake =>
    obtain ⟨hnow, hidle, hsleeping⟩ := hsound.awake hrunning
    have hbound : instant ≤ transfer.last_activity + IDLE_TIMEOUT ∧ ∀ deadline, transfer.idle = .sleeping deadline →
        instant ≤ deadline ∧ deadline ≤ transfer.last_activity + IDLE_TIMEOUT := by
      cases hphase : transfer.idle with
      | done => exact absurd hphase hidle
      | top =>
        rw [hphase] at hwake
        exact ⟨Nat.le_trans hwake hnow, nofun⟩
      | sleeping deadline =>
        rw [hphase] at hwake
        have hdeadline := (hsleeping deadline hphase).2
        refine ⟨Nat.le_trans hwake hdeadline, fun deadline' heq => ?_⟩
        cases heq
        exact ⟨hwake, hdeadline⟩
    exact ⟨hsound.noted, hsound.latest, Nat.le_trans hsound.past hlater, fun _ => ⟨hbound.1, hidle, hbound.2⟩, hsound.expired⟩
  | client io hrunning => exact hsound.call hrunning io
  | upstream io hrunning => exact hsound.call hrunning io
  | finish hrunning => exact ⟨hsound.noted, hsound.latest, hsound.past, nofun, nofun⟩
  | @poll _ idle hrunning hpoll =>
    rcases hsound.poll_cases hrunning hpoll with ⟨rfl, hdue⟩ | ⟨hbefore, deadline, rfl, hasleep, hbound⟩
    · refine ⟨hsound.noted, hsound.latest, hsound.past, nofun, fun instant hended => ?_⟩
      rw [polled, if_pos rfl] at hended
      cases hended
      exact hdue
    · refine ⟨hsound.noted, hsound.latest, hsound.past, fun _ => ⟨Nat.le_of_lt hbefore, nofun, fun deadline' heq => ?_⟩, fun instant hended => ?_⟩
      · cases heq
        exact ⟨Nat.le_of_lt hasleep, hbound⟩
      · rw [polled, if_neg nofun] at hended
        cases hended

end Transfer

theorem Transfers.sound {start : Nat} {log : List Turn} (hrun : Transfers start log transfer) : transfer.Sound :=
  hrun.invariant (P := fun _ transfer => transfer.Sound) (Transfer.Sound.start start) fun _ _ _ _ hsound hstep => hsound.step hstep

namespace Transfer

theorem call_now (transfer : Transfer) (io : Call) : (transfer.call io).now = transfer.now := by
  unfold call
  split_ifs <;> rfl

/-- No step passes the time-out. -/
theorem Sound.step_now {next : Transfer} {turn : Turn} (hsound : transfer.Sound)
    (hdue : transfer.now = transfer.last_activity + IDLE_TIMEOUT) (hstep : Step transfer turn next) :
    next.now = transfer.now := by
  cases hstep with
  | @advance instant hrunning hlater hwake =>
    have hpast := (hsound.step (.advance hrunning hlater hwake)).awake hrunning
    exact Nat.le_antisymm (hdue ▸ hpast.1) hlater
  | client io => exact transfer.call_now io
  | upstream io => exact transfer.call_now io
  | poll => rfl
  | finish => rfl

end Transfer

/-- A transfer is cut off only after `IDLE_TIMEOUT` without activity, and none runs on longer than that after its last activity:
    at that instant it is the next poll that ends it. -/
theorem idle_cut_off {start : Nat} {log : List Turn} {transfer : Transfer} (hrun : Transfers start log transfer) :
    (∀ instant, transfer.ended = some (.expired instant) →
      (∀ active ∈ transfer.activity, active + IDLE_TIMEOUT ≤ instant) ∧ ∃ active ∈ transfer.activity, instant = active + IDLE_TIMEOUT) ∧
    (transfer.ended = none → (∃ active ∈ transfer.activity, transfer.now ≤ active + IDLE_TIMEOUT) ∧
      ((∀ active ∈ transfer.activity, active + IDLE_TIMEOUT ≤ transfer.now) →
        ∃ next, transfer.Step .poll next ∧ next.ended = some (.expired transfer.now) ∧
          ∀ turn other, transfer.Step turn other → (turn = .poll → other = next) ∧ other.now = transfer.now)) := by
  have hsound := hrun.sound
  refine ⟨fun instant hended => ?_, fun hrunning => ⟨?_, fun hsilent => ?_⟩⟩
  · have hinstant := hsound.expired instant hended
    refine ⟨fun active hactive => ?_, transfer.last_activity, hsound.noted, hinstant⟩
    have := hsound.latest active hactive
    omega
  · exact ⟨transfer.last_activity, hsound.noted, (hsound.awake hrunning).1⟩
  · have hdue : transfer.now = transfer.last_activity + IDLE_TIMEOUT :=
      Nat.le_antisymm (hsound.awake hrunning).1 (hsilent _ hsound.noted)
    obtain ⟨idle, hpoll, ⟨rfl, -⟩ | ⟨hbefore, -⟩⟩ := hsound.poll_eq hrunning (Nat.le_refl 3)
    · refine ⟨transfer.polled .done, .poll hrunning hpoll, rfl, fun turn other hstep => ⟨?_, hsound.step_now hdue hstep⟩⟩
      rintro rfl
      cases hstep with
      | poll _ hother =>
        rcases hsound.poll_cases hrunning hother with ⟨rfl, -⟩ | ⟨hbefore, -⟩
        · rfl
        · omega
    · omega

/-- A transfer that nothing moves is cut off after the time-out. -/
theorem silent_cut_off : ∃ transfer, Transfers 0 [.poll, .advance IDLE_TIMEOUT, .poll] transfer ∧
    ∀ active ∈ transfer.activity, active + IDLE_TIMEOUT ≤ IDLE_TIMEOUT := by
  have hsleep : idle_expired 0 0 3 .top = some (.sleeping (0 + IDLE_TIMEOUT)) := idle_expired_top (by decide)
  have hwake : idle_expired IDLE_TIMEOUT 0 3 (.sleeping (0 + IDLE_TIMEOUT)) = some .done := idle_expired_sleeping (by decide)
  have hfirst : Transfers 0 [.poll] ((Transfer.start 0).polled (.sleeping (0 + IDLE_TIMEOUT))) := .step .start (.poll rfl hsleep)
  have hsecond : Transfers 0 [.poll, .advance IDLE_TIMEOUT] _ :=
    .step hfirst (.advance rfl (Nat.zero_le IDLE_TIMEOUT) (Nat.le_add_left _ _))
  have hrun : Transfers 0 [.poll, .advance IDLE_TIMEOUT, .poll] _ := .step hsecond (.poll rfl hwake)
  exact ⟨_, hrun, ((idle_cut_off hrun).1 IDLE_TIMEOUT rfl).1⟩

end zc.runtime
