import Zc.Api.Route

/-!
# Who may change or see connections

Without the secret a request changes nothing, and what it returns is the same whatever connections
and probes there are.
-/

namespace zc.api

open Poll (Act)

variable {M α : Type}

/-- The header that carries the secret. -/
def Bearer (secret : String) (authorization : Option (List UInt8)) : Prop :=
  ∃ scheme, authorization = some (scheme ++ str.bytes secret) ∧ scheme.length = 7 ∧
    eq_ignore_ascii_case scheme (str.bytes "Bearer ") = true

/-- A handler that leaves the state and the header alone and whose answer does not depend on the connections. -/
structure Untouched (handler : Handler M Value) (state : State M) : Prop where
  unchanged : (handler ⟨state, false⟩).2 = ⟨state, false⟩
  same : ∀ connections, (handler ⟨{ state with connections }, false⟩).1 = (handler ⟨state, false⟩).1

theorem is_authorized_iff {secret : String} {authorization : Option (List UInt8)} :
    is_authorized secret authorization = true ↔ Bearer secret authorization := by
  simp only [is_authorized, Bool.not_eq_true', Bool.or_eq_false_iff, decide_eq_false_iff_not, Bool.not_eq_false', beq_iff_eq]
  constructor
  · rintro ⟨⟨hlength, hscheme⟩, hsecret⟩
    cases authorization with
    | none => exact absurd (by decide) hlength
    | some value =>
      rw [Option.getD_some] at hlength hscheme hsecret
      refine ⟨value.take 7, ?_, ?_, hscheme⟩
      · rw [← hsecret, List.take_append_drop]
      · rw [List.length_take]
        omega
  · rintro ⟨scheme, rfl, hlength, hscheme⟩
    rw [Option.getD_some, List.take_left' hlength, List.drop_left' hlength]
    refine ⟨⟨?_, hscheme⟩, rfl⟩
    rw [List.length_append]
    omega

/-! ## Handlers that only look at the configuration -/

/-- A handler with one answer. -/
def Constant (handler : Handler M α) : Prop :=
  ∃ answer, ∀ exchange, handler exchange = (answer, exchange)

theorem Constant.pure (value : α) : Constant (pure value : Handler M α) :=
  ⟨.ok value, fun _ => rfl⟩

theorem Constant.fail (error : HttpError) : Constant (fail error : Handler M α) :=
  ⟨.error (.failed error), fun _ => rfl⟩

theorem Constant.expect (value : Option α) (error : HttpError) : Constant (expect value error : Handler M α) := by
  cases value with
  | some value => exact .pure value
  | none => exact .fail error

theorem Constant.unwrap (result : Result α) : Constant (unwrap result : Handler M α) := by
  cases result with
  | ok value => exact .pure value
  | error error => exact ⟨.error .panicked, fun _ => rfl⟩

theorem Constant.bind {β : Type} {handler : Handler M α} {next : α → Handler M β} (hhandler : Constant handler)
    (hnext : ∀ value, Constant (next value)) : Constant (handler >>= next) := by
  obtain ⟨answer, hanswer⟩ := hhandler
  cases answer with
  | ok value =>
    obtain ⟨answer', hanswer'⟩ := hnext value
    exact ⟨answer', fun exchange => by rw [Act.run_bind_of_ok (hanswer exchange), hanswer']⟩
  | error stop => exact ⟨.error stop, fun exchange => by rw [Act.run_bind_of_error (hanswer exchange)]⟩

theorem Constant.untouched {handler : Handler M Value} (hconstant : Constant handler) (state : State M) : Untouched handler state := by
  obtain ⟨answer, hanswer⟩ := hconstant
  exact ⟨by rw [hanswer], fun connections => by rw [hanswer, hanswer]⟩

variable {state : State M}

theorem untouched_getState {next : State M → Handler M Value} (hnext : ∀ state, Constant (next state))
    (hsame : ∀ connections, next { state with connections } = next state) : Untouched (getState >>= next) state := by
  have hrun : ∀ state, (getState >>= next) ⟨state, false⟩ = next state ⟨state, false⟩ := fun state => rfl
  obtain ⟨answer, hanswer⟩ := hnext state
  refine ⟨by rw [hrun, hanswer], fun connections => ?_⟩
  rw [hrun, hrun, hsame, hanswer, hanswer]

theorem untouched_status (managed : Managed M) (state : State M) : Untouched (status managed) state := by
  refine untouched_getState (fun state => ?_) fun connections => rfl
  cases state.managed with
  | some control => exact .expect _ _
  | none => exact .bind (.unwrap _) fun _ => .pure _

variable {request : Request}

/-- The arms without a selection. -/
theorem untouched_dispatch_config (moment : Moment) (managed : Managed M) (hmethod : request.method ≠ "PUT")
    (state : State M) : Untouched (dispatch_config moment managed request) state := by
  unfold dispatch_config
  dsimp only
  split_ifs with hroot hversion hproxies hrules hstatus hput hknown
  · exact (Constant.pure _).untouched state
  · exact (Constant.pure _).untouched state
  · exact untouched_getState (fun _ => .pure _) fun _ => rfl
  · exact untouched_getState (fun _ => .unwrap _) fun _ => rfl
  · exact untouched_status managed state
  · exact absurd hput.1 hmethod
  · exact (Constant.fail _).untouched state
  · exact (Constant.fail _).untouched state

/-! ## Requests -/

theorem connection_request_of_probe {path : String} (hprobe : str.startsWith path "/connections/probes/" = true) :
    connection_request path = true := by
  have hlong : "/connections/probes/".toList <+: path.toList := List.isPrefixOf_iff_prefix.1 hprobe
  have hshort : "/connections/".toList <+: "/connections/probes/".toList := by decide
  rw [connection_request, Bool.or_eq_true]
  exact .inr (List.isPrefixOf_iff_prefix.2 (hshort.trans hlong))

theorem probe_request_eq_false {path : String} (hpath : connection_request path = false) : probe_request path = false := by
  rw [probe_request, Bool.or_eq_false_iff, beq_eq_false_iff_ne]
  refine ⟨?_, Bool.eq_false_iff.2 fun hprobe => ?_⟩
  · rintro rfl
    exact absurd hpath (by decide)
  · rw [connection_request_of_probe hprobe] at hpath
    cases hpath

/-- Every request about connections or probes is one that is checked. -/
theorem dispatch_of_not_connection (moment : Moment) (managed : Managed M)
    (hpath : connection_request request.path = false) :
    dispatch moment managed request = dispatch_config moment managed request := by
  have hprobe := probe_request_eq_false hpath
  rw [connection_request, Bool.or_eq_false_iff, beq_eq_false_iff_ne] at hpath
  obtain ⟨hlist, hclose⟩ := hpath
  have hprobes := hprobe
  rw [probe_request, Bool.or_eq_false_iff, beq_eq_false_iff_ne] at hprobes
  obtain ⟨hreserve, hstart⟩ := hprobes
  simp only [dispatch, hreserve, hstart, hprobe, hlist, hclose, and_false, Bool.false_eq_true, if_false]

theorem run_fail_ifs (first second : Bool) (error error' : HttpError) (exchange : Exchange M) :
    (fail_if first error >>= fun _ => fail_if second error') exchange =
      match if first then some error else if second then some error' else none with
      | some error => (.error (.failed error), exchange)
      | none => (.ok (), exchange) := by
  cases first <;> cases second <;> rfl

/-- What `authorize` makes of a request: it is refused, or it may go on. -/
def refusal (request : Request) (state : State M) : Option HttpError :=
  if connection_request request.path && state.config.secret == "" then some ⟨403, "Connection secret required"⟩
  else if (daemon.controller_requires_auth state.config ||
      ((request.method == "PUT" || connection_request request.path) && state.config.secret != "")) &&
    !is_authorized state.config.secret request.authorization then some ⟨401, "Unauthorized"⟩
  else none

/-- A refused request ends there, and one that may go on does so with nothing changed. -/
theorem run_route (moment : Moment) (managed : Managed M) (request : Request) (exchange : Exchange M) :
    route moment managed request exchange =
      match refusal request exchange.state with
      | some error => (.error (.failed error), exchange)
      | none => (check_instance request >>= fun _ => dispatch moment managed request) exchange := by
  have hauthorize : authorize request exchange =
      match refusal request exchange.state with
      | some error => (.error (.failed error), exchange)
      | none => (.ok (), exchange) := run_fail_ifs _ _ _ _ exchange
  cases hrefusal : refusal request exchange.state with
  | some error =>
    rw [hrefusal] at hauthorize
    exact Act.run_bind_of_error hauthorize
  | none =>
    rw [hrefusal] at hauthorize
    exact Act.run_bind_of_ok hauthorize

theorem run_check_instance (hpath : connection_request request.path = false) (state : State M) :
    check_instance request ⟨state, false⟩ = (.ok (), ⟨state, false⟩) := by
  have hprobe := probe_request_eq_false hpath
  have hrun : check_instance request ⟨state, false⟩ =
      (fail_if (connection_request request.path && request.inst.any (· != str.bytes state.connections.nonce))
          ⟨409, "Connection instance changed"⟩ >>= fun _ =>
        fail_if (probe_request request.path && request.inst.isNone) BAD) ⟨state, connection_request request.path⟩ := rfl
  rw [hrun, run_fail_ifs, hpath, hprobe]
  rfl

theorem untouched_of_refusal (moment : Moment) (managed : Managed M) {error : HttpError}
    (hrefusal : refusal request state = some error) : Untouched (route moment managed request) state := by
  have hrun : ∀ connections, route moment managed request ⟨{ state with connections }, false⟩ =
      (.error (.failed error), ⟨{ state with connections }, false⟩) := by
    intro connections
    have hsame : refusal request { state with connections } = some error := hrefusal
    rw [run_route, hsame]
  exact ⟨by rw [hrun state.connections], fun connections => by rw [hrun, hrun state.connections]⟩

theorem untouched_of_config (moment : Moment) (managed : Managed M) (hmethod : request.method ≠ "PUT")
    (hpath : connection_request request.path = false) (hrefusal : refusal request state = none) :
    Untouched (route moment managed request) state := by
  have hrun : ∀ connections, route moment managed request ⟨{ state with connections }, false⟩ =
      dispatch_config moment managed request ⟨{ state with connections }, false⟩ := by
    intro connections
    have hsame : refusal request { state with connections } = none := hrefusal
    rw [run_route, hsame]
    dsimp only
    rw [Act.run_bind_of_ok (run_check_instance hpath _), dispatch_of_not_connection moment managed hpath]
  have huntouched := untouched_dispatch_config moment managed hmethod state
  exact ⟨by rw [hrun state.connections, huntouched.unchanged], fun connections => by
    rw [hrun, hrun state.connections, huntouched.same]⟩

/-- A request that changes anything, or whose answer tells of connections or probes, carries the secret. Where there is none,
    no request about connections does either. -/
theorem route_authorized (moment : Moment) (managed : Managed M) (request : Request) (state : State M) :
    (state.config.secret ≠ "" → ¬ Bearer state.config.secret request.authorization →
      Untouched (route moment managed request) state) ∧
    (state.config.secret = "" → connection_request request.path = true → Untouched (route moment managed request) state) := by
  constructor
  · intro hsecret hbearer
    have hauthorized : is_authorized state.config.secret request.authorization = false :=
      Bool.eq_false_iff.2 fun h => hbearer (is_authorized_iff.1 h)
    cases hrefusal : refusal request state with
    | some error => exact untouched_of_refusal moment managed hrefusal
    | none =>
      have hboth : request.method ≠ "PUT" ∧ connection_request request.path = false := by
        rw [refusal] at hrefusal
        split_ifs at hrefusal with hempty hchecked
        simp only [hauthorized, Bool.not_false, Bool.and_true, Bool.or_eq_true, Bool.and_eq_true, beq_iff_eq, bne_iff_ne, not_or,
          not_and] at hchecked
        exact ⟨fun hput => hchecked.2 (.inl hput) hsecret, Bool.eq_false_iff.2 fun hpath => hchecked.2 (.inr hpath) hsecret⟩
      exact untouched_of_config moment managed hboth.1 hboth.2 hrefusal
  · intro hsecret hpath
    have hrefusal : refusal request state = some ⟨403, "Connection secret required"⟩ := by
      rw [refusal, hsecret, hpath]
      rfl
    exact untouched_of_refusal moment managed hrefusal

def closeRequest : Request where
  method := "DELETE"
  path := "/connections/0123456789abcdef0123456789abcdef-1"
  authorization := some (str.bytes "Bearer guess")
  inst := none
  body := []

def guardedState : State Unit where
  config := {
    bind_address := .V4 ⟨127, 0, 0, 1⟩, proxies := [], rules := [], groups := [], selections := [], mode := "rule",
    controller := none, secret := "secret", document := .null }
  managed := none
  connections := ⟨"0123456789abcdef0123456789abcdef", .default, .default⟩
  transient := .empty

def quietMoment : Moment where
  now := 0
  reserved := 0
  random := none
  from_slice := fun _ => none
  reservation := fun _ => none
  version := "0"

def noControl : Managed Unit where
  status := fun _ _ => .ok .null
  select := fun _ _ _ control cfg => (.ok false, control, cfg)

theorem closeRequest_untouched : guardedState.config.secret ≠ "" ∧ ¬ Bearer guardedState.config.secret closeRequest.authorization ∧
    Untouched (route quietMoment noControl closeRequest) guardedState := by
  have hsecret : guardedState.config.secret ≠ "" := by decide
  have hbearer : ¬ Bearer guardedState.config.secret closeRequest.authorization := by
    rw [← is_authorized_iff]
    decide +kernel
  exact ⟨hsecret, hbearer, (route_authorized quietMoment noControl closeRequest guardedState).1 hsecret hbearer⟩

end zc.api
