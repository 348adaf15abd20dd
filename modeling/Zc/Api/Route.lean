import Zc.Connection.Probes
import Zc.Connection.Response
import Zc.Daemon.Prepared
import Zc.Lib.Poll

/-!
# Requests to the controller

`State::route` of `api.rs`: what a request must carry, and what it does and returns.
-/

namespace zc.api

open Poll (Act)
open config (Config)
open connection (index number proxy_value target_value field)
open connection.probes (Tickets)
open daemon (valid_hex)

structure Request where
  method : String
  path : String
  authorization : Option (List UInt8)
  inst : Option (List UInt8)
  body : List UInt8

structure HttpError where
  status : Nat
  text : String
  deriving DecidableEq

def BAD : HttpError := ⟨400, "Bad Request"⟩
def RESPONSE_LIMIT : Nat := 4 * 1024 * 1024

def HttpError.of_probe : connection.ProbeError → HttpError
  | .Invalid => BAD
  | .Instance => ⟨409, "Connection instance changed"⟩
  | .Missing => ⟨404, "Probe not found"⟩
  | .Consumed => ⟨409, "Probe already claimed"⟩
  | .Target => ⟨409, "Probe target mismatch"⟩
  | .Quota => ⟨429, "Probe quota exceeded"⟩
  | .Unavailable => ⟨500, "Probe unavailable"⟩
  | .ResponseTooLarge => ⟨500, "Response Too Large"⟩

def HttpError.of_close : connection.CloseError → HttpError
  | .Invalid => BAD
  | .Instance => ⟨409, "Connection instance changed"⟩
  | .Missing => ⟨404, "Connection not found"⟩

/-- The `ConnectionRegistry`. -/
structure Connections where
  nonce : String
  entries : connection.State
  tickets : Tickets

/-- The trait `Managed`. Its implementor shares the configuration with the state. -/
structure Managed (M : Type) where
  status : M → Config → Result Value
  select : (group proxy : String) → (metadata : Value) → M → Config → Result Bool × M × Config

structure State (M : Type) where
  config : Config
  managed : Option M
  connections : Connections
  transient : SortedMap String Unit

/-- The state and the variable `route` gets by reference. -/
structure Exchange (M : Type) where
  state : State M
  authenticated_connection : Bool

/-- What comes from outside while a request is handled: the readings of the clock, random bytes, and the parsers
    of the body. -/
structure Moment where
  now : Nat
  reserved : Nat
  random : Option (Vector UInt8 12)
  from_slice : List UInt8 → Option Value
  reservation : List UInt8 → Option (String × UInt16)
  version : String

abbrev Handler (M α : Type) := Act (Exchange M) HttpError α

section

variable {M α : Type}

def fail (error : HttpError) : Handler M α :=
  Act.stop (.failed error)

def fail_if (condition : Bool) (error : HttpError) : Handler M Unit :=
  if condition then fail error else pure ()

def expect (value : Option α) (error : HttpError) : Handler M α :=
  match value with
  | some value => pure value
  | none => fail error

def check (result : Except HttpError α) : Handler M α :=
  match result with
  | .ok value => pure value
  | .error error => fail error

/-- A value that is there unless the program panics. -/
def unwrap (result : Result α) : Handler M α :=
  match result with
  | .ok value => pure value
  | .error _ => Act.stop .panicked

def getState : Handler M (State M) := do
  return (← Act.get).state

/-! ## Connections and probes -/

def on_tickets (call : String → Tickets → Except connection.ProbeError α × Tickets) : Handler M α := fun exchange =>
  let connections := exchange.state.connections
  let (result, tickets) := call connections.nonce connections.tickets
  let next := { exchange with state.connections.tickets := tickets }
  match result with
  | .ok value => (.ok value, next)
  | .error error => (.error (.failed (.of_probe error)), next)

def fits (value : Value) : Bool :=
  (serde_json.to_vec value).length ≤ RESPONSE_LIMIT

def probe_state : connection.probes.State → String
  | .reserved => "reserved"
  | .claimed => "claimed"
  | .routed => "routed"

/-- What is read back from the text `write_probe` wrote. -/
def probe_value (view : connection.probes.View) : Value :=
  .object (field "connection_id" (view.connection_id.map .string) ++ field "proxy" (view.proxy.map proxy_value) ++
    field "request_index" (view.request_index.map fun n => number n.toNat) ++
    [("state", .string (probe_state view.state)), ("target", target_value view.target), ("token", .string view.token)])

def reserve (moment : Moment) (request : Request) : Handler M Value := do
  let (host, port) ← expect (moment.reservation request.body) BAD
  let target ← expect (Target.new host port).toOption BAD
  let token ← on_tickets fun nonce =>
    connection.probes.reserve_probe nonce moment.now moment.reserved moment.random target
  return .object [("token", .string token)]

def probe (moment : Moment) (token : String) : Handler M Value := do
  let ticket ← on_tickets fun nonce => connection.probes.snapshot nonce moment.now token
  let state ← getState
  let view ← unwrap (ticket.view state.config token)
  let value := probe_value view
  fail_if (!fits value) (.of_probe .ResponseTooLarge)
  return value

def release (moment : Moment) (token : String) : Handler M Value := do
  on_tickets fun nonce => connection.probes.release_probe nonce moment.now token
  return .object [("released", .bool true)]

def list : Handler M Value := do
  let state ← getState
  let value ← unwrap (connection.write_list state.config state.connections.entries)
  fail_if (!fits value) ⟨500, "Response Too Large"⟩
  return value

def close (id : String) : Handler M Value := do
  let closed : Except connection.CloseError Unit ← fun exchange =>
    let connections := exchange.state.connections
    let (result, entries) := connection.close connections.nonce id connections.entries
    (.ok result, { exchange with state.connections.entries := entries })
  match closed with
  | .ok () => return .object [("close_requested", .bool true), ("id", .string id), ("phase", .string "closing")]
  | .error error => fail (.of_close error)

/-! ## Views of the configuration -/

def proxy_entry (proxy : config.Proxy) : Value :=
  let (kind, server, port) := match proxy.kind with
    | .Shadowsocks server port .. => ("Shadowsocks", server, port.toNat)
    | .AnyTls server port .. => ("AnyTLS", server, port.toNat)
    | .Trojan server port .. => ("Trojan", server, port.toNat)
    | .Direct => ("Direct", "", 0)
    | .Reject => ("Reject", "", 0)
  .object [("name", .string proxy.name), ("port", number port), ("server", .string server), ("type", .string kind)]

/-- `Config::proxies_json`; the first two proxies are built in. -/
def proxies_json (cfg : Config) : Value :=
  .object [("proxies", .array ((cfg.proxies.drop 2).map proxy_entry))]

def rule_entry (cfg : Config) (rule : config.Rule) : Result Value := do
  let target ← cfg.node_name rule.proxy
  return .object [("payload", .string rule.payload), ("target", .string target), ("type", .string rule.kind)]

def rules_json (cfg : Config) : Result Value := do
  let rules ← cfg.rules.mapM (rule_entry cfg)
  return .object [("rules", .array rules)]

def selected (cfg : Config) (source : String → String) : Result Value := do
  let selections ← cfg.selected
  let items ← cfg.groups.mapM fun group => do
    let proxy ← okOr (selections.get group.name) (.panic "no entry found for key")
    return Value.object [("group", .string group.name), ("proxy", .string proxy), ("source", .string (source group.name))]
  return .array items

def status (managed : Managed M) : Handler M Value := do
  let state ← getState
  match state.managed with
  | some control => expect (managed.status control state.config).toOption ⟨409, "Runtime changed"⟩
  | none =>
    let items ← unwrap (selected state.config fun group =>
      if (state.transient.get group).isSome then "transient" else "default")
    return .object [("config_key", .null), ("selected_proxies", items)]

/-! ## Selections -/

/-- `char::to_digit(16)` of a byte. -/
def hex_digit (byte : UInt8) : Option Nat :=
  Digits.toDigit 16 (Char.ofNat byte.toNat)

/-- The bytes behind percent signs decoded. -/
def percent_decode : List UInt8 → Option (List UInt8)
  | [] => some []
  | 37 :: high :: low :: rest => do
    let a ← hex_digit high
    let b ← hex_digit low
    let rest ← percent_decode rest
    return UInt8.ofNat (a * 16 + b) :: rest
  | 37 :: _ => none
  | byte :: rest => do
    let rest ← percent_decode rest
    return byte :: rest

def decode_group (path : String) : Option String :=
  (percent_decode (str.bytes path)).bind str.from_utf8

def group_definition (document : Value) (group : String) : Option Value :=
  (["proxy-groups", "proxies"].filterMap fun key => (document.get key).bind Value.as_array).flatten.find? fun entry =>
    (index entry "name").as_str == some group && (entry.get "proxies").isSome

def is_member (definition : Value) (proxy : String) : Bool :=
  (index definition "proxies").as_array.any fun members => members.any fun member => member.as_str == some proxy

def metadata_fields : List String :=
  ["instance_nonce", "identity_key", "identity_revision", "generation"]

def invalid_metadata : HttpError :=
  ⟨400, "Invalid managed selection metadata"⟩

/-- The check of `State::route` on the metadata of a selection, and how many of its members are there. -/
def selection_metadata (body : Value) : Except HttpError Nat :=
  let count := (metadata_fields.filter fun key => (body.get key).isSome).length
  let text := fun key => (body.get key).bind Value.as_str
  if count ≠ 0 ∧ (count ≠ 4 ∨ (metadata_fields.take 3).any (fun key => (text key).isNone) ∨
      ((body.get "generation").bind Value.as_u64).getD 0 = 0) then .error invalid_metadata
  else if count = 4 ∧ !((text "instance_nonce").any (fun nonce => valid_hex nonce 32) &&
      (text "identity_revision").any (fun revision => valid_hex revision 32) && (text "identity_key").any store.valid_key) then
    .error invalid_metadata
  else .ok count

def selection_changed : HttpError := ⟨409, "Selection changed during apply"⟩

/-- A selection that is kept by the implementor of `Managed`. -/
def select_managed (managed : Managed M) (control : M) (group proxy : String) (body : Value) (count : Nat) : Handler M Unit := do
  fail_if (count == 0) ⟨409, "Managed selection metadata required"⟩
  let applied : Result Bool ← fun exchange =>
    let (result, control, config) := managed.select group proxy body control exchange.state.config
    (.ok result, { exchange with state.config := config, state.managed := some control })
  fail_if (applied.toOption != some true) selection_changed

def select_transient (group proxy : String) (count : Nat) : Handler M Unit := do
  fail_if (count != 0) selection_changed
  let state ← getState
  let config ← expect (state.config.select group proxy).toOption ⟨404, "Proxy or group not found"⟩
  Act.modify fun exchange =>
    { exchange with state.config := config, state.transient := exchange.state.transient.insert group () }

def select (moment : Moment) (managed : Managed M) (request : Request) (path : String) : Handler M Value := do
  let group ← expect (decode_group path) BAD
  let body ← expect (moment.from_slice request.body) BAD
  let proxy ← expect ((body.get "name").bind Value.as_str) ⟨400, "Missing name in body"⟩
  let state ← getState
  let definition ← expect (group_definition state.config.document group) ⟨404, "Group not found"⟩
  fail_if (!is_member definition proxy) ⟨404, "Proxy not found in group"⟩
  let count ← check (selection_metadata body)
  match state.managed with
  | some control => select_managed managed control group proxy body count
  | none => select_transient group proxy count
  return .object [("group", .string group), ("ok", .bool true), ("proxy", .string proxy)]

/-! ## Requests -/

def connection_request (path : String) : Bool :=
  path == "/connections" || str.startsWith path "/connections/"

def probe_request (path : String) : Bool :=
  path == "/connections/probes" || str.startsWith path "/connections/probes/"

def eq_ignore_ascii_case (bytes bytes' : List UInt8) : Bool :=
  let lower (byte : UInt8) : UInt8 := if 65 ≤ byte && byte ≤ 90 then byte + 32 else byte
  bytes.map lower == bytes'.map lower

/-- The value of the header is the scheme and the secret. -/
def is_authorized (secret : String) (authorization : Option (List UInt8)) : Bool :=
  let authorization := authorization.getD []
  !(decide (authorization.length < 7) || !eq_ignore_ascii_case (authorization.take 7) (str.bytes "Bearer ") ||
    !(authorization.drop 7 == str.bytes secret))

def authorize (request : Request) : Handler M Unit := do
  let state ← getState
  let secret := state.config.secret
  fail_if (connection_request request.path && secret == "") ⟨403, "Connection secret required"⟩
  fail_if ((daemon.controller_requires_auth state.config ||
      ((request.method == "PUT" || connection_request request.path) && secret != "")) &&
    !is_authorized secret request.authorization) ⟨401, "Unauthorized"⟩

def check_instance (request : Request) : Handler M Unit := do
  Act.modify fun exchange => { exchange with authenticated_connection := connection_request request.path }
  let state ← getState
  fail_if (connection_request request.path && request.inst.any (· != str.bytes state.connections.nonce))
    ⟨409, "Connection instance changed"⟩
  fail_if (probe_request request.path && request.inst.isNone) BAD

/-- The rest of a path behind its start. -/
def behind (path start : String) : String :=
  (str.stripPrefix path start).getD ""

/-- The arms that are about neither connections nor probes. -/
def dispatch_config (moment : Moment) (managed : Managed M) (request : Request) : Handler M Value :=
  let method := request.method
  let path := request.path
  if method = "GET" ∧ path = "/" then
    return .object [("hello", .string "zc"), ("version", .string moment.version)]
  else if method = "GET" ∧ path = "/version" then return .object [("version", .string moment.version)]
  else if method = "GET" ∧ path = "/proxies" then do
    let state ← getState
    return proxies_json state.config
  else if method = "GET" ∧ path = "/rules" then do
    let state ← getState
    unwrap (rules_json state.config)
  else if method = "GET" ∧ path = "/status" then status managed
  else if method = "PUT" ∧ str.startsWith path "/proxies/" then select moment managed request (behind path "/proxies/")
  else if method = "GET" ∨ method = "PUT" then fail ⟨404, "Not Found"⟩
  else fail ⟨405, "Method Not Allowed"⟩

def dispatch (moment : Moment) (managed : Managed M) (request : Request) : Handler M Value :=
  let method := request.method
  let path := request.path
  if method = "PUT" ∧ path = "/connections/probes" then reserve moment request
  else if method = "GET" ∧ str.startsWith path "/connections/probes/" then probe moment (behind path "/connections/probes/")
  else if method = "DELETE" ∧ str.startsWith path "/connections/probes/" then
    release moment (behind path "/connections/probes/")
  else if probe_request path then fail ⟨405, "Method Not Allowed"⟩
  else if method = "GET" ∧ path = "/connections" then list
  else if method = "DELETE" ∧ str.startsWith path "/connections/" then close (behind path "/connections/")
  else dispatch_config moment managed request

def route (moment : Moment) (managed : Managed M) (request : Request) : Handler M Value := do
  authorize request
  check_instance request
  dispatch moment managed request

end

end zc.api
