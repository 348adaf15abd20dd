import Mathlib.Data.List.Nodup
import Zc.Connection.Probes
import Zc.Lib.History

/-!
# Tickets over whole runs

The table is followed through any sequence of calls. Each live ticket agrees with the log: its
reservation is there, no release of it is, and its route is the first one its claimant recorded.
-/

namespace zc.connection.probes

open config (Config ProxyView)

/-- One call with the clock it read and what it answered. -/
structure Record where
  now : Nat
  call : Call
  answer : Answer

namespace Record

def issued : Record → Option String
  | ⟨_, .reserve .., .issued token⟩ => some token
  | _ => none

def claimed : Record → Option String
  | ⟨_, .claim token .., .claimed⟩ => some token
  | _ => none

def released : Record → Option String
  | ⟨_, .release token, .released⟩ => some token
  | _ => none

def routed : Record → Option (String × Nat × Nat)
  | ⟨_, .routed token route, _⟩ => some (token, route)
  | _ => none

/-- The token that a call found live. -/
def found : Record → Option String
  | ⟨_, .claim token .., .claimed⟩ => some token
  | ⟨_, .write token .., .written _⟩ => some token
  | ⟨_, .release token, .released⟩ => some token
  | _ => none

end Record

abbrev Log := List Record

namespace Log

def issued (log : Log) : List String :=
  log.filterMap Record.issued

def claimed (log : Log) : List String :=
  log.filterMap Record.claimed

def released (log : Log) : List String :=
  log.filterMap Record.released

/-- The first route recorded for a token. -/
def route (log : Log) (token : String) : Option (Nat × Nat) :=
  (log.filterMap Record.routed).lookup token

/-- The call that issued a token, with its target and its instant. -/
def Reserved (log : Log) (token : String) (target : zc.Target) (reserved : Nat) : Prop :=
  ∃ now random, ⟨now, .reserve target reserved random, .issued token⟩ ∈ log

/-- A token that was issued, was not released and has not expired. -/
def Alive (log : Log) (now : Nat) (token : String) : Prop :=
  token ∉ log.released ∧ ∃ target reserved, log.Reserved token target reserved ∧ now - reserved < RETENTION

end Log

/-- A `Probe` is only made by a successful claim, and only a `Probe` records routes. -/
def Step (nonce : String) (log : Log) (tickets : Tickets) (record : Record) (next : Tickets) : Prop :=
  exec nonce record.now record.call tickets = (record.answer, next) ∧
    ∀ token route, record.call = .routed token route → token ∈ log.claimed

abbrev Runs (nonce : String) : Log → Tickets → Prop :=
  History .default (Step nonce)

/-! ## Tokens -/

theorem value_leftpad (n : Nat) (text : List Char) :
    Digits.value 16 (text.leftpad n '0') = Digits.value 16 text := by
  have hzeros : ∀ k, Digits.value 16 (List.replicate k '0' ++ text) = Digits.value 16 text := by
    intro k
    induction k with
    | zero => rfl
    | succ k ih =>
      rw [List.replicate_succ, List.cons_append, ← ih]
      rfl
  exact hzeros _

/-- The counter can be read off a token, whatever the random bytes are. -/
theorem token_injective {nonce : String} {random random' : Vector UInt8 12} {n n' : Nat}
    (heq : token nonce random n = token nonce random' n') : n = n' := by
  have hlist := congrArg String.toList heq
  simp only [token, String.toList_append, String.toList_ofList] at hlist
  have hlength : (nonce.toList ++ ".".toList ++ (hex random.toList).toList).length =
      (nonce.toList ++ ".".toList ++ (hex random'.toList).toList).length := by
    simp only [List.length_append, length_hex, Vector.length_toList]
  have hdigits := congrArg (Digits.value 16) (List.append_inj hlist hlength).2
  rwa [value_leftpad, value_leftpad, Digits.value_toDigits (by decide) (by decide),
    Digits.value_toDigits (by decide) (by decide)] at hdigits

/-! ## What a call does -/

/-- The calls on a table without expired tickets. -/
inductive Effect (nonce : String) : Call → Tickets → Answer → Tickets → Prop
  | issued {target normal : zc.Target} {reserved : Nat} {random : Vector UInt8 12} {live : Tickets}
    (htarget : normalized target = .ok normal) (hlimit : live.entries.entries.length < LIMIT) :
    Effect nonce (.reserve target reserved (some random)) live (.issued (token nonce random (live.sequence + 1)))
      ⟨live.sequence + 1, live.entries.insert (token nonce random (live.sequence + 1)) ⟨reserved, normal, none⟩⟩
  | claimed {token : String} {target : zc.Target} {guard : Nat} {request_index : UInt32} {ticket : Ticket} {live : Tickets}
    {claim : Claim} (hget : live.entries.get token = some ticket) (hfree : ticket.claim = none)
    (htarget : normalized target = .ok ticket.target) (hroute : claim.route = none) :
    Effect nonce (.claim token target guard request_index) live .claimed
      { live with entries := live.entries.insert token { ticket with claim := some claim } }
  | routed {token : String} {route : Nat × Nat} {live : Tickets} :
    Effect nonce (.routed token route) live .recorded (record_route token route live)
  | written {token : String} {config : Config} {fits : View → Bool} {ticket : Ticket} {view : View} {live : Tickets}
    (hget : live.entries.get token = some ticket) (hview : ticket.view config token = .ok view) :
    Effect nonce (.write token config fits) live (.written view) live
  | released {token : String} {ticket : Ticket} {live : Tickets} (hget : live.entries.get token = some ticket) :
    Effect nonce (.release token) live .released { live with entries := live.entries.erase token }
  | refused {call : Call} {error : ProbeError} {live : Tickets} (hcall : ∀ token route, call ≠ .routed token route) :
    Effect nonce call live (.failed error) live
  | panicked {token : String} {config : Config} {fits : View → Bool} {live : Tickets} :
    Effect nonce (.write token config fits) live .panicked live

variable {now : Nat} {tickets : Tickets}

theorem answer_locked {α : Type} {body : Tickets → Except ProbeError (α × Tickets)} {success : α → Answer}
    {next : Tickets} {result : Answer} (hexec : answer success (locked now body tickets) = (result, next)) :
    (∃ value, body (tickets.expire now) = .ok (value, next) ∧ result = success value) ∨
      ∃ error, result = .failed error ∧ next = tickets.expire now := by
  unfold locked at hexec
  split at hexec
  · next hbody =>
    obtain ⟨rfl, rfl⟩ := Prod.mk.inj hexec
    exact .inl ⟨_, hbody, rfl⟩
  · next error _ =>
    obtain ⟨rfl, rfl⟩ := Prod.mk.inj hexec
    exact .inr ⟨error, rfl, rfl⟩

theorem effect_of_exec {nonce : String} {call : Call} {next : Tickets} {result : Answer}
    (hexec : exec nonce now call tickets = (result, next)) : Effect nonce call (tickets.expire now) result next := by
  cases call with
  | reserve target reserved random =>
    rcases answer_locked hexec with ⟨value, hbody, rfl⟩ | ⟨error, rfl, rfl⟩
    · split at hbody
      · cases hbody
      next normal hnormal =>
      split_ifs at hbody with hlimit hsequence
      split at hbody
      · cases hbody
      obtain ⟨rfl, rfl⟩ := Prod.mk.inj (Except.ok.inj hbody)
      exact .issued hnormal (Nat.lt_of_not_le hlimit)
    · exact .refused nofun
  | claim token target guard request_index =>
    rcases answer_locked hexec with ⟨value, hbody, rfl⟩ | ⟨error, rfl, rfl⟩
    · split at hbody
      · cases hbody
      split at hbody
      · cases hbody
      next normal hnormal =>
      split at hbody
      · cases hbody
      next ticket hget =>
      split_ifs at hbody with hfree htarget
      obtain ⟨-, rfl⟩ := Prod.mk.inj (Except.ok.inj hbody)
      refine .claimed hget (Option.not_isSome_iff_eq_none.1 hfree) ?_ rfl
      rw [hnormal, of_not_not htarget]
    · exact .refused nofun
  | routed token route =>
    obtain ⟨rfl, rfl⟩ := Prod.mk.inj hexec
    exact .routed
  | write token config fits =>
    rcases answer_locked hexec with ⟨value, hbody, rfl⟩ | ⟨error, rfl, rfl⟩
    · split at hbody
      · cases hbody
      split at hbody
      · cases hbody
      next ticket hget =>
      obtain ⟨rfl, rfl⟩ := Prod.mk.inj (Except.ok.inj hbody)
      unfold write_view
      split
      · exact .panicked
      next view hview =>
      split_ifs
      · exact .written hget hview
      · exact .refused nofun
    · exact .refused nofun
  | release token =>
    rcases answer_locked hexec with ⟨value, hbody, rfl⟩ | ⟨error, rfl, rfl⟩
    · split at hbody
      · cases hbody
      split at hbody
      · cases hbody
      next ticket hget =>
      obtain ⟨-, rfl⟩ := Prod.mk.inj (Except.ok.inj hbody)
      exact .released hget
    · exact .refused nofun

theorem mem_expire {entry : String × Ticket} :
    entry ∈ (tickets.expire now).entries.entries ↔ entry ∈ tickets.entries.entries ∧ now - entry.2.reserved < RETENTION := by
  rw [Tickets.expire, SortedMap.filter, List.mem_filter, decide_eq_true_eq]

/-! ## The invariant -/

/-- What the log says about a live ticket. -/
structure Tracks (log : Log) (token : String) (ticket : Ticket) : Prop where
  reserved : ∃ target, log.Reserved token target ticket.reserved ∧ normalized target = .ok ticket.target
  unreleased : token ∉ log.released
  unclaimed : ticket.claim = none → token ∉ log.claimed
  route : ∀ claim, ticket.claim = some claim → claim.route = log.route token

structure Sound (nonce : String) (log : Log) (tickets : Tickets) : Prop where
  sequence : tickets.sequence = log.issued.length
  tokens : ∀ i issued, log.issued[i]? = some issued → ∃ random, issued = token nonce random (i + 1)
  claimed_nodup : log.claimed.Nodup
  claimed_issued : ∀ token ∈ log.claimed, token ∈ log.issued
  released_issued : ∀ token ∈ log.released, token ∈ log.issued
  routed_claimed : ∀ token, log.route token ≠ none → token ∈ log.claimed
  limit : tickets.entries.entries.length ≤ LIMIT
  tracks : ∀ token ticket, (token, ticket) ∈ tickets.entries.entries → Tracks log token ticket

theorem sound_default (nonce : String) : Sound nonce [] .default where
  sequence := rfl
  tokens := by
    intro i issued hissued
    cases hissued
  claimed_nodup := List.nodup_nil
  claimed_issued := by
    intro token hclaimed
    cases hclaimed
  released_issued := by
    intro token hreleased
    cases hreleased
  routed_claimed := by
    intro token hroute
    exact absurd rfl hroute
  limit := Nat.zero_le _
  tracks := by
    intro token ticket hmem
    cases hmem

/-! ## One more call -/

namespace Log

variable {log : Log} {record : Record}

theorem issued_concat : Log.issued (log ++ [record]) = log.issued ++ record.issued.toList := by
  rw [issued, List.filterMap_append]
  cases hrecord : record.issued <;> simp [hrecord, issued]

theorem claimed_concat : Log.claimed (log ++ [record]) = log.claimed ++ record.claimed.toList := by
  rw [claimed, List.filterMap_append]
  cases hrecord : record.claimed <;> simp [hrecord, claimed]

theorem released_concat : Log.released (log ++ [record]) = log.released ++ record.released.toList := by
  rw [released, List.filterMap_append]
  cases hrecord : record.released <;> simp [hrecord, released]

theorem claimed_concat_of_none (hrecord : record.claimed = none) : Log.claimed (log ++ [record]) = log.claimed := by
  rw [claimed_concat, hrecord, Option.toList_none, List.append_nil]

theorem released_concat_of_none (hrecord : record.released = none) : Log.released (log ++ [record]) = log.released := by
  rw [released_concat, hrecord, Option.toList_none, List.append_nil]

theorem route_concat (token : String) :
    Log.route (log ++ [record]) token = (log.route token).or (record.routed.toList.lookup token) := by
  rw [route, List.filterMap_append, List.lookup_append]
  cases hrecord : record.routed <;> simp [hrecord, route]

end Log

variable {log : Log} {ticket : Ticket}

theorem Tracks.concat {record : Record} {token : String} (htracks : Tracks log token ticket)
    (hreleased : record.released ≠ some token) (hclaimed : ticket.claim = none → record.claimed ≠ some token)
    (hrouted : ∀ route claim, record.routed = some (token, route) → ticket.claim = some claim → claim.route ≠ none) :
    Tracks (log ++ [record]) token ticket where
  reserved := by
    obtain ⟨target, ⟨now, random, hmem⟩, htarget⟩ := htracks.reserved
    exact ⟨target, ⟨now, random, List.mem_append_left _ hmem⟩, htarget⟩
  unreleased := by
    rw [Log.released_concat, List.mem_append, not_or]
    exact ⟨htracks.unreleased, fun hmem => hreleased (Option.mem_toList.1 hmem)⟩
  unclaimed := by
    intro hfree
    rw [Log.claimed_concat, List.mem_append, not_or]
    exact ⟨htracks.unclaimed hfree, fun hmem => hclaimed hfree (Option.mem_toList.1 hmem)⟩
  route := by
    intro claim hclaim
    rw [Log.route_concat, ← htracks.route claim hclaim]
    cases hroute : claim.route with
    | some route => rfl
    | none =>
      cases hrecord : record.routed with
      | none => rfl
      | some entry =>
        have hne : token ≠ entry.1 := by
          rintro rfl
          exact hrouted entry.2 claim hrecord hclaim hroute
        rw [Option.none_or, Option.toList_some, List.lookup_cons, beq_false_of_ne hne]
        rfl

theorem Sound.concat {nonce : String} {next : Tickets} {record : Record} (hsound : Sound nonce log tickets)
    (hissued : record.issued = none) (hsequence : next.sequence = tickets.sequence)
    (hclaimed : ∀ token, record.claimed = some token → token ∈ log.issued ∧ token ∉ log.claimed)
    (hreleased : ∀ token, record.released = some token → token ∈ log.issued)
    (hrouted : ∀ token route, record.routed = some (token, route) → token ∈ log.claimed)
    (hlimit : next.entries.entries.length ≤ LIMIT)
    (htracks : ∀ token ticket, (token, ticket) ∈ next.entries.entries → Tracks (log ++ [record]) token ticket) :
    Sound nonce (log ++ [record]) next := by
  have hsame : Log.issued (log ++ [record]) = log.issued := by
    rw [Log.issued_concat, hissued, Option.toList_none, List.append_nil]
  refine ⟨?_, ?_, ?_, ?_, ?_, ?_, hlimit, htracks⟩
  · rw [hsame, hsequence, hsound.sequence]
  · rw [hsame]
    exact hsound.tokens
  · rw [Log.claimed_concat]
    cases hrecord : record.claimed with
    | none =>
      rw [Option.toList_none, List.append_nil]
      exact hsound.claimed_nodup
    | some token =>
      rw [Option.toList_some, ← List.concat_eq_append]
      exact List.Nodup.concat (hclaimed token hrecord).2 hsound.claimed_nodup
  · intro token hmem
    rw [Log.claimed_concat, List.mem_append] at hmem
    rw [hsame]
    exact hmem.elim (hsound.claimed_issued token) fun hmem => (hclaimed token (Option.mem_toList.1 hmem)).1
  · intro token hmem
    rw [Log.released_concat, List.mem_append] at hmem
    rw [hsame]
    exact hmem.elim (hsound.released_issued token) fun hmem => hreleased token (Option.mem_toList.1 hmem)
  · intro token hroute
    rw [Log.claimed_concat, List.mem_append]
    refine .inl ?_
    rw [Log.route_concat] at hroute
    by_cases hlog : log.route token = none
    · rw [hlog, Option.none_or] at hroute
      cases hrecord : record.routed with
      | none =>
        rw [hrecord] at hroute
        exact absurd rfl hroute
      | some entry =>
        have heq : token = entry.1 := by
          by_contra hne
          rw [hrecord, Option.toList_some, List.lookup_cons, beq_false_of_ne hne] at hroute
          exact hroute rfl
        exact heq ▸ hrouted entry.1 entry.2 hrecord
    · exact hsound.routed_claimed token hlog

/-! ## Every call -/

theorem Sound.expire {nonce : String} (hsound : Sound nonce log tickets) (now : Nat) :
    Sound nonce log (tickets.expire now) :=
  { hsound with
    limit := (List.length_filter_le _ _).trans hsound.limit
    tracks := fun token ticket hmem => hsound.tracks token ticket (mem_expire.1 hmem).1 }

theorem Sound.mem_issued {nonce : String} (hsound : Sound nonce log tickets) {token : String}
    (hmem : (token, ticket) ∈ tickets.entries.entries) : token ∈ log.issued := by
  obtain ⟨target, ⟨now, random, hrecord⟩, -⟩ := (hsound.tracks token ticket hmem).reserved
  exact List.mem_filterMap.2 ⟨_, hrecord, rfl⟩

/-- A fresh token does not occur in the log. -/
theorem Sound.token_notMem {nonce : String} (hsound : Sound nonce log tickets) (random : Vector UInt8 12) :
    token nonce random (tickets.sequence + 1) ∉ log.issued := by
  intro hmem
  obtain ⟨i, hi, hget⟩ := List.getElem_of_mem hmem
  obtain ⟨random', htoken⟩ := hsound.tokens i _ (List.getElem?_eq_some_iff.2 ⟨hi, hget⟩)
  have hsequence := token_injective htoken
  rw [hsound.sequence] at hsequence
  omega

theorem Sound.issue {nonce : String} {live : Tickets} {record : Record} (hsound : Sound nonce log live)
    {target normal : zc.Target} {reserved : Nat} {random : Vector UInt8 12}
    (hcall : record.call = .reserve target reserved (some random))
    (hanswer : record.answer = .issued (token nonce random (live.sequence + 1)))
    (htarget : normalized target = .ok normal) (hlimit : live.entries.entries.length < LIMIT) :
    Sound nonce (log ++ [record])
      ⟨live.sequence + 1, live.entries.insert (token nonce random (live.sequence + 1)) ⟨reserved, normal, none⟩⟩ := by
  obtain ⟨now, call, answer⟩ := record
  subst hcall hanswer
  have hfresh := hsound.token_notMem random
  generalize hnew : token nonce random (live.sequence + 1) = new at *
  have hissued : Log.issued (log ++ [⟨now, .reserve target reserved (some random), .issued new⟩]) = log.issued ++ [new] :=
    Log.issued_concat
  have hclaimed : Log.claimed (log ++ [⟨now, .reserve target reserved (some random), .issued new⟩]) = log.claimed :=
    Log.claimed_concat_of_none rfl
  have hreleased : Log.released (log ++ [⟨now, .reserve target reserved (some random), .issued new⟩]) = log.released :=
    Log.released_concat_of_none rfl
  have hroute : ∀ token, Log.route (log ++ [⟨now, .reserve target reserved (some random), .issued new⟩]) token = log.route token := by
    intro token
    rw [Log.route_concat]
    exact Option.or_none
  refine ⟨?_, ?_, ?_, ?_, ?_, ?_, ?_, ?_⟩
  · rw [hissued, List.length_append, hsound.sequence]
    rfl
  · intro i issued hget
    rw [hissued, List.getElem?_append] at hget
    split_ifs at hget with hi
    · exact hsound.tokens i issued hget
    · obtain ⟨hindex, hget⟩ := List.getElem?_eq_some_iff.1 hget
      rw [List.getElem_singleton] at hget
      rw [List.length_singleton] at hindex
      refine ⟨random, ?_⟩
      rw [← hget, ← hnew, hsound.sequence]
      congr 2
      omega
  · rw [hclaimed]
    exact hsound.claimed_nodup
  · intro token hmem
    rw [hclaimed] at hmem
    rw [hissued]
    exact List.mem_append_left _ (hsound.claimed_issued token hmem)
  · intro token hmem
    rw [hreleased] at hmem
    rw [hissued]
    exact List.mem_append_left _ (hsound.released_issued token hmem)
  · intro token hne
    rw [hroute] at hne
    rw [hclaimed]
    exact hsound.routed_claimed token hne
  · exact (SortedMap.length_insertEntry_le _ _ _).trans hlimit
  · intro token ticket hmem
    rcases SortedMap.mem_entries_insert.1 hmem with heq | ⟨hmem, -⟩
    · obtain ⟨rfl, rfl⟩ := Prod.mk.inj heq
      refine ⟨⟨target, ⟨now, some random, List.mem_append_right _ List.mem_cons_self⟩, htarget⟩, ?_, ?_, nofun⟩
      · rw [hreleased]
        exact fun hmem => hfresh (hsound.released_issued _ hmem)
      · rw [hclaimed]
        exact fun _ hmem => hfresh (hsound.claimed_issued _ hmem)
    · exact (hsound.tracks token ticket hmem).concat nofun (fun _ => nofun) nofun

theorem Sound.claim {nonce : String} {live : Tickets} {record : Record} (hsound : Sound nonce log live) {token : String}
    {target : zc.Target} {guard : Nat} {request_index : UInt32} {claim : Claim}
    (hcall : record.call = .claim token target guard request_index) (hanswer : record.answer = .claimed)
    (hget : live.entries.get token = some ticket) (hfree : ticket.claim = none) (hroute : claim.route = none) :
    Sound nonce (log ++ [record])
      { live with entries := live.entries.insert token { ticket with claim := some claim } } := by
  obtain ⟨now, call, answer⟩ := record
  subst hcall hanswer
  have hmem := SortedMap.mem_entries_of_get hget
  have htracks := hsound.tracks token ticket hmem
  have hunclaimed := htracks.unclaimed hfree
  refine hsound.concat rfl rfl ?_ nofun nofun ?_ ?_
  · rintro _ ⟨⟩
    exact ⟨hsound.mem_issued hmem, hunclaimed⟩
  · exact (SortedMap.length_insertEntry_of_mem live.entries.sorted hmem rfl).trans_le hsound.limit
  · intro other found hfound
    rcases SortedMap.mem_entries_insert.1 hfound with heq | ⟨hfound, hne⟩
    · obtain ⟨rfl, rfl⟩ := Prod.mk.inj heq
      refine ⟨?_, ?_, nofun, ?_⟩
      · obtain ⟨target', ⟨now', random, hrecord⟩, htarget⟩ := htracks.reserved
        exact ⟨target', ⟨now', random, List.mem_append_left _ hrecord⟩, htarget⟩
      · rw [Log.released_concat_of_none rfl]
        exact htracks.unreleased
      · rintro _ ⟨⟩
        rw [Log.route_concat, hroute, eq_comm]
        exact Option.or_eq_none_iff.2 ⟨of_not_not fun hne => hunclaimed (hsound.routed_claimed _ hne), rfl⟩
    · refine (hsound.tracks other found hfound).concat nofun (fun _ heq => hne (Option.some.inj heq).symm) nofun

theorem Sound.record_route {nonce : String} {live : Tickets} {record : Record} (hsound : Sound nonce log live)
    {token : String} {route : Nat × Nat} (hcall : record.call = .routed token route)
    (hanswer : record.answer = .recorded) (hclaimed : token ∈ log.claimed) :
    Sound nonce (log ++ [record]) (probes.record_route token route live) := by
  obtain ⟨now, call, answer⟩ := record
  subst hcall hanswer
  have hrouted : ∀ token' route', Record.routed ⟨now, .routed token route, .recorded⟩ = some (token', route') → token' ∈ log.claimed := by
    rintro _ _ ⟨⟩
    exact hclaimed
  -- Without a claim that waits for its first route nothing changes.
  have hsame : (∀ ticket claim, (token, ticket) ∈ live.entries.entries → ticket.claim = some claim → claim.route ≠ none) →
      Sound nonce (log ++ [⟨now, .routed token route, .recorded⟩]) live := by
    intro hdone
    refine hsound.concat rfl rfl nofun nofun hrouted hsound.limit fun other ticket hmem => ?_
    refine (hsound.tracks other ticket hmem).concat nofun (fun _ => nofun) ?_
    rintro _ claim ⟨⟩ hclaim
    exact hdone ticket claim hmem hclaim
  unfold probes.record_route
  split
  · next hget =>
    refine hsame fun ticket claim hmem => ?_
    rw [SortedMap.get_of_mem_entries hmem] at hget
    cases hget
  next ticket hget =>
  have hmem := SortedMap.mem_entries_of_get hget
  have honly : ∀ other, (token, other) ∈ live.entries.entries → other = ticket := fun other hother =>
    (Prod.mk.inj (SortedMap.eq_of_mem_entries hother hmem rfl)).2
  split
  · next hclaim =>
    refine hsame fun other claim hother hsome => ?_
    rw [honly other hother, hclaim] at hsome
    cases hsome
  next claim hclaim =>
  have htracks := hsound.tracks token ticket hmem
  split_ifs with hnone
  · refine hsound.concat rfl rfl nofun nofun hrouted ?_ fun other found hfound => ?_
    · exact (SortedMap.length_insertEntry_of_mem live.entries.sorted hmem rfl).trans_le hsound.limit
    · rcases SortedMap.mem_entries_insert.1 hfound with heq | ⟨hfound, hne⟩
      · obtain ⟨rfl, rfl⟩ := Prod.mk.inj heq
        refine ⟨?_, ?_, nofun, ?_⟩
        · obtain ⟨target, ⟨now', random, hrecord⟩, htarget⟩ := htracks.reserved
          exact ⟨target, ⟨now', random, List.mem_append_left _ hrecord⟩, htarget⟩
        · rw [Log.released_concat_of_none rfl]
          exact htracks.unreleased
        · rintro _ ⟨⟩
          rw [Log.route_concat, ← htracks.route claim hclaim, Option.isNone_iff_eq_none.1 hnone, Option.none_or]
          exact (List.lookup_cons_self ..).symm
      · refine (hsound.tracks other found hfound).concat nofun (fun _ => nofun) ?_
        rintro _ _ ⟨⟩
        exact absurd rfl hne
  · refine hsame fun other claim' hother hsome => ?_
    rw [honly other hother, hclaim] at hsome
    obtain rfl := Option.some.inj hsome
    exact fun heq => hnone (Option.isNone_iff_eq_none.2 heq)

theorem Sound.release {nonce : String} {live : Tickets} {record : Record} (hsound : Sound nonce log live)
    {token : String} (hcall : record.call = .release token) (hanswer : record.answer = .released)
    (hget : live.entries.get token = some ticket) :
    Sound nonce (log ++ [record]) { live with entries := live.entries.erase token } := by
  obtain ⟨now, call, answer⟩ := record
  subst hcall hanswer
  refine hsound.concat rfl rfl nofun ?_ nofun ((List.length_filter_le _ _).trans hsound.limit) fun other found hfound => ?_
  · rintro _ ⟨⟩
    exact hsound.mem_issued (SortedMap.mem_entries_of_get hget)
  · obtain ⟨hfound, hne⟩ := List.mem_filter.1 hfound
    refine (hsound.tracks other found hfound).concat ?_ (fun _ => nofun) nofun
    rintro ⟨⟩
    exact absurd rfl (bne_iff_ne.1 hne)

theorem Sound.quiet {nonce : String} {live : Tickets} {record : Record} (hsound : Sound nonce log live)
    (hissued : record.issued = none) (hclaimed : record.claimed = none) (hreleased : record.released = none)
    (hrouted : record.routed = none) : Sound nonce (log ++ [record]) live := by
  refine hsound.concat hissued rfl ?_ ?_ ?_ hsound.limit fun other ticket hmem => ?_
  · simp [hclaimed]
  · simp [hreleased]
  · simp [hrouted]
  · exact (hsound.tracks other ticket hmem).concat (by simp [hreleased]) (by simp [hclaimed]) (by simp [hrouted])

theorem Sound.step {nonce : String} {log : Log} {tickets next : Tickets} {record : Record} (hsound : Sound nonce log tickets)
    (hstep : Step nonce log tickets record next) : Sound nonce (log ++ [record]) next := by
  obtain ⟨now, call, answer⟩ := record
  obtain ⟨hexec, hclaimed⟩ := hstep
  have hlive := hsound.expire now
  have heffect : Effect nonce call (tickets.expire now) answer next := effect_of_exec hexec
  generalize tickets.expire now = live at hlive heffect
  cases heffect with
  | issued htarget hlimit => exact hlive.issue rfl rfl htarget hlimit
  | claimed hget hfree htarget hroute => exact hlive.claim rfl rfl hget hfree hroute
  | routed => exact hlive.record_route rfl rfl (hclaimed _ _ rfl)
  | written hget hview => exact hlive.quiet rfl rfl rfl rfl
  | released hget => exact hlive.release rfl rfl hget
  | refused hcall =>
    refine hlive.quiet ?_ ?_ ?_ ?_
    all_goals cases call <;> first | rfl | exact absurd rfl (hcall _ _)
  | panicked => exact hlive.quiet rfl rfl rfl rfl

theorem sound_of_runs {nonce : String} (hruns : Runs nonce log tickets) : Sound nonce log tickets :=
  hruns.invariant (sound_default nonce) fun _ _ _ _ => Sound.step

/-- What a call finds under a token is alive. -/
theorem Sound.alive {nonce : String} (hsound : Sound nonce log tickets) {token : String}
    (hget : (tickets.expire now).entries.get token = some ticket) : log.Alive now token := by
  obtain ⟨hmem, hage⟩ := mem_expire.1 (SortedMap.mem_entries_of_get hget)
  have htracks := hsound.tracks token ticket hmem
  obtain ⟨target, hreserved, -⟩ := htracks.reserved
  exact ⟨htracks.unreleased, target, ticket.reserved, hreserved, hage⟩

theorem alive_of_step {nonce : String} {next : Tickets} {record : Record} (hsound : Sound nonce log tickets)
    (hstep : Step nonce log tickets record next) {token : String} (hfound : record.found = some token) :
    log.Alive record.now token := by
  obtain ⟨now, call, answer⟩ := record
  have heffect : Effect nonce call (tickets.expire now) answer next := effect_of_exec hstep.1
  have halive : ∀ {token ticket}, (tickets.expire now).entries.get token = some ticket → log.Alive now token := hsound.alive
  generalize tickets.expire now = live at heffect halive
  cases heffect with
  | issued | routed | panicked => cases hfound
  | claimed hget =>
    obtain rfl := Option.some.inj hfound
    exact halive hget
  | written hget =>
    obtain rfl := Option.some.inj hfound
    exact halive hget
  | released hget =>
    obtain rfl := Option.some.inj hfound
    exact halive hget
  | refused => cases call <;> cases hfound

theorem target_of_step {nonce : String} {next : Tickets} (hsound : Sound nonce log tickets) {token : String}
    {target : zc.Target} {guard : Nat} {request_index : UInt32}
    (hstep : Step nonce log tickets ⟨now, .claim token target guard request_index, .claimed⟩ next) :
    ∃ target' reserved, log.Reserved token target' reserved ∧ normalized target = normalized target' ∧
      now - reserved < RETENTION := by
  have heffect : Effect nonce _ (tickets.expire now) _ next := effect_of_exec hstep.1
  generalize hlive : tickets.expire now = live at heffect
  cases heffect with
  | claimed hget _ htarget _ =>
    rw [← hlive] at hget
    obtain ⟨hmem, hage⟩ := mem_expire.1 (SortedMap.mem_entries_of_get hget)
    obtain ⟨target', hreserved, htarget'⟩ := (hsound.tracks _ _ hmem).reserved
    exact ⟨target', _, hreserved, htarget.trans htarget'.symm, hage⟩

/-- The route of a view is the first one recorded. -/
theorem route_of_step {nonce : String} {next : Tickets} (hsound : Sound nonce log tickets) {token : String}
    {config : Config} {fits : View → Bool} {view : View}
    (hstep : Step nonce log tickets ⟨now, .write token config fits, .written view⟩ next) :
    (log.route token).mapM (fun route => config.proxy_view route.2) = .ok view.proxy := by
  have heffect : Effect nonce _ (tickets.expire now) _ next := effect_of_exec hstep.1
  generalize hlive : tickets.expire now = live at heffect
  cases heffect with
  | @written _ _ _ ticket _ _ hget hview =>
    rw [← hlive] at hget
    have htracks := hsound.tracks _ _ (mem_expire.1 (SortedMap.mem_entries_of_get hget)).1
    have hroute : ticket.route = log.route token := by
      cases hclaim : ticket.claim with
      | none =>
        rw [Ticket.route, hclaim, Option.bind_none, eq_comm]
        exact of_not_not fun hne => htracks.unclaimed hclaim (hsound.routed_claimed token hne)
      | some claim =>
        rw [Ticket.route, hclaim, Option.bind_some]
        exact htracks.route claim hclaim
    rw [Ticket.view, bind_eq_ok_iff, hroute] at hview
    obtain ⟨proxy, hproxy, hpure⟩ := hview
    rw [← Except.ok.inj hpure]
    exact hproxy

theorem Sound.issued_nodup {nonce : String} (hsound : Sound nonce log tickets) : log.issued.Nodup := by
  refine List.nodup_iff_injective_getElem.2 fun i j heq => ?_
  obtain ⟨random, hi⟩ := hsound.tokens i _ (List.getElem?_eq_getElem i.2)
  obtain ⟨random', hj⟩ := hsound.tokens j _ (List.getElem?_eq_getElem j.2)
  have hsequence := token_injective (hi.symm.trans (heq.trans hj))
  exact Fin.ext (Nat.succ_injective hsequence)

theorem probes_single_use {nonce : String} {log : Log} {tickets : Tickets} (hruns : Runs nonce log tickets) :
    log.issued.Nodup ∧ log.claimed.Nodup ∧ tickets.entries.entries.length ≤ LIMIT ∧
    (∀ token ticket, tickets.entries.get token = some ticket → token ∈ log.issued ∧ token ∉ log.released) ∧
    ∀ before record after, log = before ++ record :: after →
      (∀ token, record.found = some token → Log.Alive before record.now token) ∧
      (∀ token route, Log.route before token = some route → log.route token = some route) ∧
      (∀ token target guard request_index, record.call = .claim token target guard request_index → record.answer = .claimed →
        ∃ target' reserved, Log.Reserved before token target' reserved ∧ normalized target = normalized target' ∧
          record.now - reserved < RETENTION) ∧
      ∀ token config fits view, record.call = .write token config fits → record.answer = .written view →
        (Log.route before token).mapM (fun route => config.proxy_view route.2) = .ok view.proxy := by
  have hsound := sound_of_runs hruns
  refine ⟨hsound.issued_nodup, hsound.claimed_nodup, hsound.limit, fun token ticket hget => ?_, ?_⟩
  · have hmem := SortedMap.mem_entries_of_get hget
    exact ⟨hsound.mem_issued hmem, (hsound.tracks token ticket hmem).unreleased⟩
  · rintro before ⟨now, call, answer⟩ after rfl
    obtain ⟨middle, next, hbefore, hstep⟩ := hruns.split
    have hmiddle := sound_of_runs hbefore
    refine ⟨fun token hfound => alive_of_step hmiddle hstep hfound, fun token route hroute => ?_, ?_, ?_⟩
    · rw [Log.route, List.filterMap_append, List.lookup_append]
      exact Option.or_eq_some_iff.2 (.inl hroute)
    · rintro token target guard request_index ⟨⟩ ⟨⟩
      exact target_of_step hmiddle hstep
    · rintro token config fits view ⟨⟩ ⟨⟩
      exact route_of_step hmiddle hstep

/-! ## A sample -/

def sampleNonce : String :=
  "0123456789abcdef0123456789abcdef"

theorem sample_port : (443 : UInt16) ≠ 0 := by
  decide

def sampleTarget : zc.Target :=
  ⟨"Example.org", 443, sample_port⟩

def sampleToken : String :=
  token sampleNonce (.replicate 12 0) 1

/-- One ticket, reserved and claimed. -/
def sampleCalls : List (Nat × Call) :=
  [(0, .reserve sampleTarget 0 (some (.replicate 12 0))), (5, .claim sampleToken sampleTarget 1 0), (6, .routed sampleToken (0, 2))]

def replay (nonce : String) (calls : List (Nat × Call)) : Log × Tickets :=
  calls.foldl (fun state call =>
    let result := exec nonce call.1 call.2 state.2
    (state.1 ++ [⟨call.1, call.2, result.1⟩], result.2)) ([], .default)

theorem runs_replay {nonce : String} {calls : List (Nat × Call)} (hruns : Runs nonce (replay nonce calls).1 (replay nonce calls).2)
    {now : Nat} {call : Call} (hcall : ∀ token route, call = .routed token route → token ∈ (replay nonce calls).1.claimed) :
    Runs nonce (replay nonce (calls ++ [(now, call)])).1 (replay nonce (calls ++ [(now, call)])).2 := by
  rw [replay, List.foldl_append]
  exact .step hruns ⟨rfl, hcall⟩

theorem sample_single_use : (replay sampleNonce sampleCalls).1.claimed = [sampleToken] ∧
    Runs sampleNonce (replay sampleNonce sampleCalls).1 (replay sampleNonce sampleCalls).2 ∧
    (replay sampleNonce sampleCalls).1.issued.Nodup := by
  have hclaimed : (replay sampleNonce (sampleCalls.take 2)).1.claimed = [sampleToken] := by
    decide +kernel
  have hruns : Runs sampleNonce (replay sampleNonce sampleCalls).1 (replay sampleNonce sampleCalls).2 := by
    have hfirst : Runs sampleNonce (replay sampleNonce (sampleCalls.take 1)).1 (replay sampleNonce (sampleCalls.take 1)).2 :=
      @runs_replay sampleNonce [] .start _ _ nofun
    have hsecond : Runs sampleNonce (replay sampleNonce (sampleCalls.take 2)).1 (replay sampleNonce (sampleCalls.take 2)).2 :=
      runs_replay hfirst nofun
    refine runs_replay hsecond ?_
    rintro _ _ ⟨⟩
    rw [hclaimed]
    exact List.mem_cons_self
  refine ⟨?_, hruns, (probes_single_use hruns).1⟩
  decide +kernel

end zc.connection.probes
