import Zc.Connection.Serve
import Zc.Udp.Codec

/-!
# One UDP association

The loop of `udp_relay`: datagrams of the association's socket on one side, those of the outbound
session on the other. What the network and the rules answer is part of an event, and everything the
loop does to the outside is kept in the order it was done.
-/

namespace zc.runtime

open config (Route SocketAddr)
open connection (Change Inbound refuses)

/-- In seconds. -/
def UDP_IDLE_TIMEOUT : Nat := 300

inductive Effect where
  /-- A call on the guard of the connection. -/
  | record (change : Change)
  | route (target : Target) (sender : SocketAddr)
  | open_udp (route : Route)
  /-- A datagram for the outbound session. -/
  | forward (payload : List UInt8) (target : Target)
  /-- A datagram for the client. -/
  | respond (client : SocketAddr) (bytes : List UInt8)

/-- The variables of the loop and what it has done. The route stands for the session it opened. -/
structure Relay where
  pinned : Option SocketAddr
  session : Option Route
  deadline : Nat
  ended : Bool
  effects : List Effect

/-- What the calls made for one datagram answer, and the time after them. -/
structure Outcome where
  /-- Nothing if the lookup fails or takes too long. -/
  route : Option Route
  opened : Bool
  forwarded : Bool
  now : Nat

inductive Event where
  /-- The deadline has passed. -/
  | expired (now : Nat)
  /-- The socket fails. -/
  | failed
  | datagram (sender : SocketAddr) (bytes : List UInt8) (outcome : Outcome)
  /-- The session ends. -/
  | closed
  | outbound (source : Target) (payload : List UInt8) (sent : Bool) (now : Nat)

namespace Relay

def start (source_ip : net.IpAddr) (requested_port : UInt16) (now : Nat) : Relay where
  pinned := if requested_port ≠ 0 then some ⟨source_ip, requested_port⟩ else none
  session := none
  deadline := now + UDP_IDLE_TIMEOUT
  ended := false
  effects := []

def emit (relay : Relay) (effects : List Effect) : Relay :=
  { relay with effects := relay.effects ++ effects }

/-- A datagram goes to the session; only one that was taken keeps the association alive. -/
def forward (relay : Relay) (payload : List UInt8) (target : Target) (outcome : Outcome) : Relay :=
  if outcome.forwarded then { relay.emit [.forward payload target] with deadline := outcome.now + UDP_IDLE_TIMEOUT }
  else relay.emit [.forward payload target]

/-- The first datagram: its route, if it allows datagrams, is opened. -/
def open_session (relay : Relay) (sender : SocketAddr) (target : Target) (payload : List UInt8) (outcome : Outcome) : Relay :=
  let relay := relay.emit [.record (.target target (some sender) .Socks5Udp), .route target sender]
  match outcome.route with
  | none => { relay with ended := true }
  | some route =>
    let relay := relay.emit [.record (.routed route)]
    if refuses .Socks5Udp route then { relay.emit [.record (.phase .Rejected)] with ended := true }
    else
      let relay := relay.emit [.open_udp route]
      if outcome.opened then
        { relay.emit [.record (.phase .Active)] with session := some route }.forward payload route.target outcome
      else { relay with ended := true }

def receive (source_ip : net.IpAddr) (relay : Relay) (sender : SocketAddr) (bytes : List UInt8) (outcome : Outcome) : Relay :=
  if sender.ip ≠ source_ip ∨ sender.port = 0 ∨ relay.pinned.any (· ≠ sender) then relay
  else
    match udp_request bytes with
    | .error _ => relay
    | .ok (target, payload) =>
      let relay := { relay with pinned := some sender }
      if relay.session.isNone then relay.open_session sender target payload outcome
      else relay.forward payload target outcome

def respond (relay : Relay) (source : Target) (payload : List UInt8) (sent : Bool) (now : Nat) : Relay :=
  match relay.pinned with
  | none => relay
  | some client =>
    match udp_response source payload with
    | .error _ => relay
    | .ok response =>
      if sent then { relay.emit [.respond client response] with deadline := now + UDP_IDLE_TIMEOUT }
      else relay.emit [.respond client response]

def step (source_ip : net.IpAddr) (relay : Relay) : Event → Relay
  | .expired _ => { relay with ended := true }
  | .failed => { relay with ended := true }
  | .datagram sender bytes outcome => relay.receive source_ip sender bytes outcome
  | .closed => { relay with ended := true }
  | .outbound source payload sent now => relay.respond source payload sent now

/-- What can happen next: nothing after the end, the deadline only when it is reached, and the session only when it is there. -/
def Allows (relay : Relay) : Event → Prop
  | .expired now => relay.ended = false ∧ relay.deadline ≤ now
  | .failed => relay.ended = false
  | .datagram _ _ _ => relay.ended = false
  | .closed => relay.ended = false ∧ relay.session.isSome = true
  | .outbound _ _ _ _ => relay.ended = false ∧ relay.session.isSome = true

end Relay

abbrev Association (source_ip : net.IpAddr) (requested_port : UInt16) (now : Nat) : List Event → Relay → Prop :=
  History (.start source_ip requested_port now) fun _ relay event next => relay.Allows event ∧ next = relay.step source_ip event

/-! ## Datagrams that count -/

/-- The sender of a well-formed datagram from the peer of the control connection. -/
def candidate (source_ip : net.IpAddr) : Event → Option SocketAddr
  | .datagram sender bytes _ =>
    if sender.ip = source_ip ∧ sender.port ≠ 0 ∧ (udp_request bytes).isOk = true then some sender else none
  | _ => none

/-- The client of an association: the port it asked for, or its first well-formed datagram's sender. -/
def client (source_ip : net.IpAddr) (requested_port : UInt16) (events : List Event) : Option SocketAddr :=
  if requested_port ≠ 0 then some ⟨source_ip, requested_port⟩ else events.findSome? (candidate source_ip)

/-- The payload of a well-formed datagram from one sender. -/
def carried (sender : SocketAddr) : Event → Option (List UInt8)
  | .datagram found bytes _ =>
    match udp_request bytes with
    | .ok (_, payload) => if found = sender then some payload else none
    | .error _ => none
  | _ => none

def Effect.forwarded : Effect → Option (List UInt8)
  | .forward payload _ => some payload
  | _ => none

def Effect.response : Effect → Option SocketAddr
  | .respond client _ => some client
  | _ => none

def Effect.is_route : Effect → Bool
  | .route _ _ => true
  | _ => false

def Effect.is_open : Effect → Bool
  | .open_udp _ => true
  | _ => false

theorem isOk_of_eq {α : Type} {result : Result α} {value : α} (hresult : result = .ok value) : result.isOk = true := by
  rw [hresult]
  rfl

variable {source_ip : net.IpAddr} {sender : SocketAddr} {bytes payload : List UInt8} {target : Target}
  {outcome : Outcome}

theorem candidate_of_request (hip : sender.ip = source_ip) (hport : sender.port ≠ 0)
    (hrequest : udp_request bytes = .ok (target, payload)) :
    candidate source_ip (.datagram sender bytes outcome) = some sender :=
  if_pos ⟨hip, hport, isOk_of_eq hrequest⟩

theorem carried_of_request (hrequest : udp_request bytes = .ok (target, payload)) :
    carried sender (.datagram sender bytes outcome) = some payload := by
  rw [carried, hrequest]
  exact if_pos rfl

variable {event : Event}

theorem exists_of_carried (hcarried : carried sender event = some payload) :
    ∃ bytes outcome target, event = .datagram sender bytes outcome ∧ udp_request bytes = .ok (target, payload) := by
  cases event with
  | datagram found bytes outcome =>
    rw [carried] at hcarried
    split at hcarried
    · next target payload' hrequest =>
      split_ifs at hcarried with hfound
      cases hcarried
      exact ⟨bytes, outcome, target, by rw [hfound], hrequest⟩
    · cases hcarried
  | expired now => cases hcarried
  | failed => cases hcarried
  | closed => cases hcarried
  | outbound source payload sent now => cases hcarried

variable {events : List Event}

/-- Before the first well-formed datagram nothing was carried. -/
theorem carried_eq_nil (hip : sender.ip = source_ip) (hport : sender.port ≠ 0)
    (hnone : events.findSome? (candidate source_ip) = none) : events.filterMap (carried sender) = [] := by
  rw [List.filterMap_eq_nil_iff]
  intro event hevent
  cases hcarried : carried sender event with
  | none => rfl
  | some payload =>
    obtain ⟨bytes, outcome, target, rfl, hrequest⟩ := exists_of_carried hcarried
    have hcandidate := List.findSome?_eq_none_iff.1 hnone _ hevent
    cases (candidate_of_request hip hport hrequest).symm.trans hcandidate

/-! ## One datagram -/

/-- The datagrams that are acted on. -/
structure Relay.Counts (source_ip : net.IpAddr) (relay : Relay) (sender : SocketAddr) (bytes : List UInt8) (target : Target)
    (payload : List UInt8) : Prop where
  ip : sender.ip = source_ip
  port : sender.port ≠ 0
  pinned : relay.pinned = none ∨ relay.pinned = some sender
  request : udp_request bytes = .ok (target, payload)

theorem Relay.receive_cases (source_ip : net.IpAddr) (relay : Relay) (sender : SocketAddr) (bytes : List UInt8) (outcome : Outcome) :
    (relay.receive source_ip sender bytes outcome = relay ∧ ∀ target payload, ¬relay.Counts source_ip sender bytes target payload) ∨
    ∃ target payload, relay.Counts source_ip sender bytes target payload ∧
      relay.receive source_ip sender bytes outcome =
        if relay.session.isNone then { relay with pinned := some sender }.open_session sender target payload outcome
        else { relay with pinned := some sender }.forward payload target outcome := by
  have hpinned : relay.pinned.any (· ≠ sender) = true ↔ ¬(relay.pinned = none ∨ relay.pinned = some sender) := by
    cases relay.pinned <;> simp
  unfold receive
  by_cases hskip : sender.ip ≠ source_ip ∨ sender.port = 0 ∨ relay.pinned.any (· ≠ sender) = true
  · rw [if_pos hskip]
    refine .inl ⟨rfl, fun target payload hcounts => ?_⟩
    rcases hskip with hip | hport | hother
    · exact hip hcounts.ip
    · exact hcounts.port hport
    · exact hpinned.1 hother hcounts.pinned
  · rw [if_neg hskip]
    rw [not_or, not_or, not_not, hpinned, not_not] at hskip
    cases hrequest : udp_request bytes with
    | error error =>
      refine .inl ⟨rfl, fun target payload hcounts => ?_⟩
      cases hrequest.symm.trans hcounts.request
    | ok found => exact .inr ⟨found.1, found.2, ⟨hskip.1, hskip.2.1, hskip.2.2, hrequest⟩, rfl⟩

theorem Relay.effects_forward (relay : Relay) (payload : List UInt8) (target : Target) (outcome : Outcome) :
    (relay.forward payload target outcome).effects = relay.effects ++ [.forward payload target] := by
  unfold forward
  split_ifs <;> rfl

theorem Relay.pinned_forward (relay : Relay) (payload : List UInt8) (target : Target) (outcome : Outcome) :
    (relay.forward payload target outcome).pinned = relay.pinned := by
  unfold forward
  split_ifs <;> rfl

theorem Relay.session_forward (relay : Relay) (payload : List UInt8) (target : Target) (outcome : Outcome) :
    (relay.forward payload target outcome).session = relay.session := by
  unfold forward
  split_ifs <;> rfl

/-- Whatever becomes of the first datagram, it was routed once, and it is forwarded unless the association ends. -/
theorem Relay.open_session_cases (relay : Relay) (sender : SocketAddr) (target : Target) (payload : List UInt8) (outcome : Outcome) :
    ∃ done, (relay.open_session sender target payload outcome).effects = relay.effects ++ done ∧
      (relay.open_session sender target payload outcome).pinned = relay.pinned ∧
      done.countP Effect.is_route ≤ 1 ∧ done.countP Effect.is_open ≤ 1 ∧ done.filterMap Effect.response = [] ∧
      ((relay.open_session sender target payload outcome).ended = true ∧ done.filterMap Effect.forwarded = [] ∨
        (relay.open_session sender target payload outcome).session.isSome = true ∧ done.filterMap Effect.forwarded = [payload]) := by
  unfold open_session
  cases outcome.route with
  | none => exact ⟨_, rfl, rfl, Nat.le_refl _, Nat.zero_le _, rfl, .inl ⟨rfl, rfl⟩⟩
  | some route =>
    dsimp only
    split_ifs
    · refine ⟨[.record (.target target (some sender) .Socks5Udp), .route target sender, .record (.routed route),
        .record (.phase .Rejected)], ?_, rfl, Nat.le_refl _, Nat.zero_le _, rfl, .inl ⟨rfl, rfl⟩⟩
      simp only [emit, List.append_assoc]
      rfl
    · refine ⟨[.record (.target target (some sender) .Socks5Udp), .route target sender, .record (.routed route), .open_udp route,
        .record (.phase .Active), .forward payload route.target], ?_, ?_, Nat.le_refl _, Nat.le_refl _, rfl, .inr ⟨?_, rfl⟩⟩
      · rw [effects_forward]
        simp only [emit, List.append_assoc]
        rfl
      · rw [pinned_forward]
        rfl
      · rw [session_forward]
        rfl
    · refine ⟨[.record (.target target (some sender) .Socks5Udp), .route target sender, .record (.routed route), .open_udp route],
        ?_, rfl, Nat.le_refl _, Nat.le_refl _, rfl, .inl ⟨rfl, rfl⟩⟩
      simp only [emit, List.append_assoc]
      rfl

/-! ## Runs -/

structure Relay.Sound (source_ip : net.IpAddr) (requested_port : UInt16) (events : List Event) (relay : Relay) : Prop where
  pinned : relay.pinned = client source_ip requested_port events
  peer : ∀ sender, relay.pinned = some sender → sender.ip = source_ip ∧ sender.port ≠ 0
  fresh : relay.ended = false → relay.session = none → relay.effects = []
  forwarded : ∀ sender, relay.pinned = some sender →
    relay.effects.filterMap Effect.forwarded <+: events.filterMap (carried sender)
  all : relay.ended = false → ∀ sender, relay.pinned = some sender →
    relay.effects.filterMap Effect.forwarded = events.filterMap (carried sender)
  unpinned : relay.pinned = none → relay.effects = []
  responses : ∀ address ∈ relay.effects.filterMap Effect.response, relay.pinned = some address
  routes : relay.effects.countP Effect.is_route ≤ 1
  opens : relay.effects.countP Effect.is_open ≤ 1

variable {requested_port : UInt16}

theorem client_append_of_none (hnone : candidate source_ip event = none) :
    client source_ip requested_port (events ++ [event]) = client source_ip requested_port events := by
  unfold client
  rw [List.findSome?_append, List.findSome?_singleton, hnone, Option.or_none]

theorem client_append_of_some (hsome : client source_ip requested_port events = some sender) :
    client source_ip requested_port (events ++ [event]) = some sender := by
  unfold client at hsome ⊢
  split_ifs at hsome ⊢
  · exact hsome
  · rw [List.findSome?_append, hsome, Option.some_or]

theorem Relay.sound_start (source_ip : net.IpAddr) (requested_port : UInt16) (now : Nat) :
    (start source_ip requested_port now).Sound source_ip requested_port [] where
  pinned := by
    unfold start client
    split_ifs <;> rfl
  peer := by
    intro sender hsender
    unfold start at hsender
    dsimp only at hsender
    split_ifs at hsender with hport
    cases hsender
    exact ⟨rfl, hport⟩
  fresh := fun _ _ => rfl
  forwarded := fun _ _ => List.prefix_rfl
  all := fun _ _ _ => rfl
  unpinned := fun _ => rfl
  responses := nofun
  routes := Nat.zero_le _
  opens := Nat.zero_le _

variable {relay : Relay}

/-- An event that carries nothing and does nothing but perhaps end the association. -/
theorem Relay.Sound.idle {next : Relay} (hsound : relay.Sound source_ip requested_port events)
    (hclient : client source_ip requested_port (events ++ [event]) = relay.pinned)
    (hcarried : ∀ sender, relay.pinned = some sender → carried sender event = none)
    (hpinned : next.pinned = relay.pinned) (heffects : next.effects = relay.effects)
    (hended : next.ended = false → relay.ended = false ∧ next.session = relay.session) :
    next.Sound source_ip requested_port (events ++ [event]) := by
  have hsame : ∀ sender, relay.pinned = some sender → (events ++ [event]).filterMap (carried sender) = events.filterMap (carried sender) := by
    intro sender hsender
    rw [List.filterMap_append, List.filterMap_cons_none (hcarried sender hsender), List.filterMap_nil, List.append_nil]
  constructor
  · rw [hpinned, hclient]
  · rw [hpinned]
    exact hsound.peer
  · intro hopen hsession
    obtain ⟨hopen, hkept⟩ := hended hopen
    rw [heffects, hsound.fresh hopen (hkept ▸ hsession)]
  · rw [hpinned, heffects]
    intro sender hsender
    rw [hsame sender hsender]
    exact hsound.forwarded sender hsender
  · rw [hpinned, heffects]
    intro hopen sender hsender
    rw [hsame sender hsender]
    exact hsound.all (hended hopen).1 sender hsender
  · rw [hpinned, heffects]
    exact hsound.unpinned
  · rw [hpinned, heffects]
    exact hsound.responses
  · rw [heffects]
    exact hsound.routes
  · rw [heffects]
    exact hsound.opens

/-- A datagram that is acted on fixes the client, and its payload is forwarded unless the association ends. -/
theorem Relay.Sound.counted {next : Relay} {done : List Effect} (hsound : relay.Sound source_ip requested_port events)
    (hopen : relay.ended = false) (hcounts : relay.Counts source_ip sender bytes target payload)
    (hpinned : next.pinned = some sender) (heffects : next.effects = relay.effects ++ done)
    (hresponse : done.filterMap Effect.response = []) (hroutes : next.effects.countP Effect.is_route ≤ 1)
    (hopens : next.effects.countP Effect.is_open ≤ 1)
    (hforward : next.ended = true ∧ done.filterMap Effect.forwarded = [] ∨ next.session.isSome = true ∧ done.filterMap Effect.forwarded = [payload]) :
    next.Sound source_ip requested_port (events ++ [.datagram sender bytes outcome]) := by
  have hclient : client source_ip requested_port (events ++ [.datagram sender bytes outcome]) = some sender ∧
      relay.effects.filterMap Effect.forwarded = events.filterMap (carried sender) := by
    rcases hcounts.pinned with hnone | hsome
    · have hfree := hsound.pinned.symm.trans hnone
      unfold client at hfree ⊢
      split_ifs at hfree with hport
      rw [if_neg hport, List.findSome?_append, hfree, Option.none_or, List.findSome?_singleton,
        candidate_of_request hcounts.ip hcounts.port hcounts.request]
      rw [hsound.unpinned hnone, carried_eq_nil hcounts.ip hcounts.port hfree]
      exact ⟨rfl, rfl⟩
    · exact ⟨client_append_of_some (hsound.pinned.symm.trans hsome), hsound.all hopen sender hsome⟩
  have hcarried : (events ++ [Event.datagram sender bytes outcome]).filterMap (carried sender) =
      relay.effects.filterMap Effect.forwarded ++ [payload] := by
    rw [List.filterMap_append, List.filterMap_cons_some (carried_of_request hcounts.request), List.filterMap_nil, hclient.2]
  constructor
  · rw [hpinned, hclient.1]
  · intro other hother
    cases hpinned.symm.trans hother
    exact ⟨hcounts.ip, hcounts.port⟩
  · intro hlive hsession
    rcases hforward with ⟨hended, -⟩ | ⟨hsome, -⟩
    · cases hlive.symm.trans hended
    · rw [hsession] at hsome
      cases hsome
  · intro other hother
    cases hpinned.symm.trans hother
    rw [heffects, List.filterMap_append, hcarried, List.prefix_append_right_inj]
    rcases hforward with ⟨-, hnil⟩ | ⟨-, hone⟩
    · rw [hnil]
      exact List.nil_prefix
    · rw [hone]
  · intro hlive other hother
    cases hpinned.symm.trans hother
    rcases hforward with ⟨hended, -⟩ | ⟨-, hone⟩
    · cases hlive.symm.trans hended
    · rw [heffects, List.filterMap_append, hcarried, hone]
  · intro hnone
    cases hpinned.symm.trans hnone
  · intro address haddress
    rw [heffects, List.filterMap_append, hresponse, List.append_nil] at haddress
    have hbefore := hsound.responses address haddress
    rcases hcounts.pinned with hnone | hsome
    · cases hnone.symm.trans hbefore
    · rw [hpinned, ← hsome, hbefore]
  · exact hroutes
  · exact hopens

theorem Relay.Sound.receive (hsound : relay.Sound source_ip requested_port events) (hopen : relay.ended = false) :
    (relay.receive source_ip sender bytes outcome).Sound source_ip requested_port (events ++ [.datagram sender bytes outcome]) := by
  rcases relay.receive_cases source_ip sender bytes outcome with ⟨hsame, hskips⟩ | ⟨target, payload, hcounts, hreceive⟩
  · rw [hsame]
    refine hsound.idle ?_ ?_ rfl rfl fun h => ⟨h, rfl⟩
    · cases hpinned : relay.pinned with
      | some found => exact client_append_of_some (hsound.pinned.symm.trans hpinned)
      | none =>
        rw [client_append_of_none, ← hsound.pinned, hpinned]
        unfold candidate
        refine if_neg fun ⟨hip, hport, hok⟩ => ?_
        cases hrequest : udp_request bytes with
        | error error =>
          rw [hrequest] at hok
          cases hok
        | ok found => exact hskips found.1 found.2 ⟨hip, hport, .inl hpinned, hrequest⟩
    · intro found hfound
      cases hcarried : carried found (.datagram sender bytes outcome) with
      | none => rfl
      | some payload =>
        obtain ⟨bytes', outcome', target, hevent, hrequest⟩ := exists_of_carried hcarried
        cases hevent
        obtain ⟨hip, hport⟩ := hsound.peer _ hfound
        exact absurd ⟨hip, hport, .inr hfound, hrequest⟩ (hskips target payload)
  · rw [hreceive]
    split_ifs with hsession
    · obtain ⟨done, heffects, hpinned, hroutes, hopens, hresponse, hforward⟩ :=
        { relay with pinned := some sender }.open_session_cases sender target payload outcome
      have hnone := hsound.fresh hopen (Option.isNone_iff_eq_none.1 hsession)
      refine hsound.counted hopen hcounts hpinned heffects hresponse ?_ ?_ hforward
      · rw [heffects, List.countP_append]
        simpa [hnone] using hroutes
      · rw [heffects, List.countP_append]
        simpa [hnone] using hopens
    · have heffects := { relay with pinned := some sender }.effects_forward payload target outcome
      refine hsound.counted hopen hcounts (pinned_forward _ _ _ _) heffects rfl ?_ ?_ (.inr ⟨?_, rfl⟩)
      · rw [heffects, List.countP_append]
        exact hsound.routes
      · rw [heffects, List.countP_append]
        exact hsound.opens
      · rw [session_forward]
        cases hsome : relay.session with
        | none =>
          rw [hsome] at hsession
          exact absurd rfl hsession
        | some route => rfl

theorem Relay.respond_cases (relay : Relay) (source : Target) (payload : List UInt8) (sent : Bool) (now : Nat) :
    relay.respond source payload sent now = relay ∨
    ∃ client response, relay.pinned = some client ∧ (relay.respond source payload sent now).effects = relay.effects ++ [.respond client response] ∧
      (relay.respond source payload sent now).pinned = relay.pinned ∧ (relay.respond source payload sent now).session = relay.session ∧
      (relay.respond source payload sent now).ended = relay.ended := by
  unfold respond
  cases hpinned : relay.pinned with
  | none => exact .inl rfl
  | some client =>
    cases udp_response source payload with
    | error error => exact .inl rfl
    | ok response =>
      dsimp only
      split_ifs
      · exact .inr ⟨client, response, rfl, rfl, hpinned, rfl, rfl⟩
      · exact .inr ⟨client, response, rfl, rfl, hpinned, rfl, rfl⟩

theorem Relay.Sound.respond {source : Target} {sent : Bool} {now : Nat}
    (hsound : relay.Sound source_ip requested_port events) (hopen : relay.ended = false)
    (hsession : relay.session.isSome = true) :
    (relay.respond source payload sent now).Sound source_ip requested_port (events ++ [.outbound source payload sent now]) := by
  have hclient : client source_ip requested_port (events ++ [.outbound source payload sent now]) = relay.pinned :=
    (client_append_of_none rfl).trans hsound.pinned.symm
  rcases relay.respond_cases source payload sent now with hsame | ⟨address, response, haddress, heffects, hpinned, hkept, hended⟩
  · rw [hsame]
    exact hsound.idle hclient (fun _ _ => rfl) rfl rfl fun h => ⟨h, rfl⟩
  · have hcarried : ∀ sender, (events ++ [Event.outbound source payload sent now]).filterMap (carried sender) = events.filterMap (carried sender) := by
      intro sender
      rw [List.filterMap_append]
      exact List.append_nil _
    have hforwarded : (relay.respond source payload sent now).effects.filterMap Effect.forwarded = relay.effects.filterMap Effect.forwarded := by
      rw [heffects, List.filterMap_append]
      exact List.append_nil _
    constructor
    · rw [hpinned, hclient]
    · rw [hpinned]
      exact hsound.peer
    · intro _ hnone
      rw [hkept] at hnone
      rw [hnone] at hsession
      cases hsession
    · intro sender hsender
      rw [hforwarded, hcarried]
      exact hsound.forwarded sender (hpinned ▸ hsender)
    · intro _ sender hsender
      rw [hforwarded, hcarried]
      exact hsound.all hopen sender (hpinned ▸ hsender)
    · intro hnone
      cases haddress.symm.trans (hpinned ▸ hnone)
    · intro other hother
      rw [heffects, List.filterMap_append, List.mem_append] at hother
      rw [hpinned]
      rcases hother with hother | hother
      · exact hsound.responses other hother
      · cases List.mem_singleton.1 hother
        exact haddress
    · rw [heffects, List.countP_append]
      exact hsound.routes
    · rw [heffects, List.countP_append]
      exact hsound.opens

theorem Relay.Sound.step {source_ip : net.IpAddr} {requested_port : UInt16} {events : List Event} {relay : Relay} {event : Event}
    (hsound : relay.Sound source_ip requested_port events) (hallows : relay.Allows event) :
    (relay.step source_ip event).Sound source_ip requested_port (events ++ [event]) := by
  have hclient : ∀ {event}, candidate source_ip event = none → client source_ip requested_port (events ++ [event]) = relay.pinned :=
    fun hnone => (client_append_of_none hnone).trans hsound.pinned.symm
  cases event with
  | expired now => exact hsound.idle (hclient rfl) (fun _ _ => rfl) rfl rfl nofun
  | failed => exact hsound.idle (hclient rfl) (fun _ _ => rfl) rfl rfl nofun
  | datagram sender bytes outcome => exact hsound.receive hallows
  | closed => exact hsound.idle (hclient rfl) (fun _ _ => rfl) rfl rfl nofun
  | outbound source payload sent now => exact hsound.respond hallows.1 hallows.2

theorem Relay.sound_of_association {now : Nat} (hrun : Association source_ip requested_port now events relay) :
    relay.Sound source_ip requested_port events := by
  refine hrun.invariant (P := fun events relay => relay.Sound source_ip requested_port events) (sound_start ..) ?_
  rintro events relay event _ hsound ⟨hallows, rfl⟩
  exact hsound.step hallows

theorem udp_request_fragmented (hheader : ¬[0, 0, 0] <+: bytes) : ∃ error, udp_request bytes = .error error := by
  cases hrequest : udp_request bytes with
  | error error => exact ⟨error, rfl⟩
  | ok found =>
    obtain ⟨-, host, -, -, hbytes⟩ := udp_request_eq_ok_iff.1 hrequest
    exact absurd ⟨_, hbytes.symm⟩ hheader

/-- An association serves one client: the requested port of the control connection's peer, or the sender of its first well-formed
    datagram. What is forwarded are that client's payloads in their order, answers go to it alone, one route is looked up and one
    session opened, and no other datagram changes anything. -/
theorem association_isolated {source_ip : net.IpAddr} {requested_port : UInt16} {now : Nat} {events : List Event} {relay : Relay}
    (hrun : Association source_ip requested_port now events relay) :
    (relay.pinned = client source_ip requested_port events ∧
      ∀ sender, relay.pinned = some sender → sender.ip = source_ip ∧ sender.port ≠ 0) ∧
    (relay.effects.filterMap Effect.forwarded = [] ∨ ∃ sender, relay.pinned = some sender ∧
      relay.effects.filterMap Effect.forwarded <+: events.filterMap (carried sender)) ∧
    (∀ address response, Effect.respond address response ∈ relay.effects → relay.pinned = some address) ∧
    relay.effects.countP Effect.is_route ≤ 1 ∧ relay.effects.countP Effect.is_open ≤ 1 ∧
    ∀ sender bytes outcome, (sender.ip ≠ source_ip ∨ sender.port = 0 ∨ (∃ found, relay.pinned = some found ∧ found ≠ sender) ∨
      ¬[0, 0, 0] <+: bytes ∨ ∃ error, udp_request bytes = .error error) →
      relay.step source_ip (.datagram sender bytes outcome) = relay := by
  have hsound := Relay.sound_of_association hrun
  refine ⟨⟨hsound.pinned, hsound.peer⟩, ?_, ?_, hsound.routes, hsound.opens, ?_⟩
  · cases hpinned : relay.pinned with
    | none =>
      left
      rw [hsound.unpinned hpinned]
      rfl
    | some sender => exact .inr ⟨sender, rfl, hsound.forwarded sender hpinned⟩
  · intro address response hmem
    exact hsound.responses address (List.mem_filterMap.2 ⟨_, hmem, rfl⟩)
  · intro sender bytes outcome hskip
    rcases relay.receive_cases source_ip sender bytes outcome with ⟨hsame, -⟩ | ⟨target, payload, hcounts, -⟩
    · exact hsame
    · exfalso
      rcases hskip with hip | hport | ⟨found, hfound, hne⟩ | hheader | ⟨error, herror⟩
      · exact hip hcounts.ip
      · exact hcounts.port hport
      · rcases hcounts.pinned with hnone | hsome
        · cases hnone.symm.trans hfound
        · cases hsome.symm.trans hfound
          exact hne rfl
      · obtain ⟨error, herror⟩ := udp_request_fragmented hheader
        cases herror.symm.trans hcounts.request
      · cases herror.symm.trans hcounts.request

/-- A datagram for port 53 of 1.2.3.4 that finds no route. -/
def lostDatagram : Event :=
  .datagram ⟨.V4 ⟨127, 0, 0, 1⟩, 5000⟩ [0, 0, 0, 1, 1, 2, 3, 4, 0, 53, 9] { route := none, opened := false, forwarded := false, now := 0 }

theorem lostDatagram_pins : ∃ relay, Association (.V4 ⟨127, 0, 0, 1⟩) 0 0 [lostDatagram] relay ∧
    relay.pinned = some ⟨.V4 ⟨127, 0, 0, 1⟩, 5000⟩ ∧ relay.effects.countP Effect.is_route ≤ 1 := by
  have hrun : Association (.V4 ⟨127, 0, 0, 1⟩) 0 0 [lostDatagram] _ := .step .start ⟨rfl, rfl⟩
  obtain ⟨⟨hpinned, -⟩, -, -, hroutes, -⟩ := association_isolated hrun
  have hclient : client (.V4 ⟨127, 0, 0, 1⟩) 0 [lostDatagram] = some ⟨.V4 ⟨127, 0, 0, 1⟩, 5000⟩ := by decide +kernel
  exact ⟨_, hrun, hpinned.trans hclient, hroutes⟩

end zc.runtime
