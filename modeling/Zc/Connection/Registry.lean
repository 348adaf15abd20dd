import Zc.Config.Route
import Zc.Config.Views
import Zc.Hex

/-!
# The connection registry

`connection.rs`: the entries of the open connections and what the guards of the connections and the
API do to them. The JSON of a listing is the value a reader gets, with the keys in order.
-/

namespace zc.connection

open config (Config Route RuleView ProxyView SocketAddr)

def LIMIT : Nat := 1024

inductive Phase where
  | Handshake
  | Routing
  | Connecting
  | Active
  | Idle
  | UdpWait
  | Rejected
  | Closing
  deriving DecidableEq

/-- The name that serialization gives a phase. -/
def Phase.name : Phase → String
  | .Handshake => "handshake"
  | .Routing => "routing"
  | .Connecting => "connecting"
  | .Active => "active"
  | .Idle => "idle"
  | .UdpWait => "udp_wait"
  | .Rejected => "rejected"
  | .Closing => "closing"

inductive Protocol where
  | Tcp
  | Udp
  deriving DecidableEq

def Protocol.name : Protocol → String
  | .Tcp => "tcp"
  | .Udp => "udp"

inductive Inbound where
  | HttpConnect
  | HttpForward
  | Socks5Connect
  | Socks5Udp
  deriving DecidableEq

def Inbound.name : Inbound → String
  | .HttpConnect => "http_connect"
  | .HttpForward => "http_forward"
  | .Socks5Connect => "socks5_connect"
  | .Socks5Udp => "socks5_udp"

structure Metadata where
  id : String
  source : SocketAddr
  protocol : Protocol
  phase : Phase
  inbound : Option Inbound
  target : Option zc.Target
  routed_target : Option zc.Target
  datagram_source : Option SocketAddr
  target_scope : Option String

structure Entry where
  metadata : Metadata
  /-- The rule and the leaf of the route. -/
  route : Option (Nat × Nat)
  /-- The value in the `watch` channel. -/
  cancel : Bool

structure State where
  /-- A `u64`. -/
  sequence : Nat
  entries : SortedMap Nat Entry

def State.default : State :=
  ⟨0, .empty⟩

inductive CloseError where
  | Invalid
  | Instance
  | Missing
  deriving DecidableEq

def connection_id (nonce : String) (sequence : Nat) : String :=
  nonce ++ "-" ++ String.ofList (Nat.toDigits 10 sequence)

def split_id (id : String) : Option (String × Nat) :=
  match str.rsplitOnce id '-' with
  | none => none
  | some (nonce, sequence) =>
    if str.len nonce ≠ 32 || !nonce.toList.all isHexDigit || str.startsWith sequence "0" ||
        !sequence.toList.all Char.isDigit then none
    else if sequence = "" || 2 ^ 64 ≤ str.decimal sequence then none
    else some (nonce, str.decimal sequence)

/-- The sequence number of the new entry's guard, if the connection is admitted. -/
def register (nonce : String) (source : SocketAddr) (state : State) : Option (Nat × State) :=
  if LIMIT ≤ state.entries.entries.length then none
  else if 2 ^ 64 ≤ state.sequence + 1 then none
  else
    let sequence := state.sequence + 1
    let metadata : Metadata := {
      id := connection_id nonce sequence
      source
      protocol := .Tcp
      phase := .Handshake
      inbound := none
      target := none
      routed_target := none
      datagram_source := none
      target_scope := none }
    some (sequence, ⟨sequence, state.entries.insert sequence ⟨metadata, none, false⟩⟩)

def Entry.close (entry : Entry) : Entry :=
  { entry with metadata := { entry.metadata with phase := .Closing }, cancel := true }

def close (nonce id : String) (state : State) : Except CloseError Unit × State :=
  match split_id id with
  | none => (.error .Invalid, state)
  | some (instance_nonce, sequence) =>
    if instance_nonce ≠ nonce then (.error .Instance, state)
    else
      match state.entries.get sequence with
      | none => (.error .Missing, state)
      | some entry => (.ok (), { state with entries := state.entries.insert sequence entry.close })

/-! ## Guards -/

/-- The calls on a guard, apart from its drop. -/
inductive Change where
  | phase (phase : Phase)
  | inbound (inbound : Inbound)
  | target (target : zc.Target) (datagram_source : Option SocketAddr) (inbound : Inbound)
  | routed (route : Route)
  | idle

def Change.apply (entry : Entry) : Change → Entry
  | .phase next => { entry with metadata := { entry.metadata with phase := next } }
  | .inbound kind =>
    if kind = .Socks5Udp then
      { entry with metadata := { entry.metadata with inbound := some kind, protocol := .Udp, phase := .UdpWait } }
    else { entry with metadata := { entry.metadata with inbound := some kind } }
  | .target destination datagram_source kind =>
    { entry with
      metadata := { entry.metadata with
        inbound := some kind
        target := some destination
        routed_target := none
        phase := .Routing
        datagram_source
        target_scope := datagram_source.map fun _ => "first_datagram" }
      route := none }
  | .routed route =>
    { entry with
      metadata := { entry.metadata with routed_target := some route.target, phase := .Connecting }
      route := some (route.rule_index, route.leaf_index) }
  | .idle =>
    { entry with
      metadata := { entry.metadata with phase := .Idle, target := none, routed_target := none }
      route := none }

/-- `Guard::update`: an entry that is closing keeps what it has. -/
def update (sequence : Nat) (change : Change) (state : State) : State :=
  match state.entries.get sequence with
  | none => state
  | some entry =>
    if entry.metadata.phase ≠ .Closing then
      { state with entries := state.entries.insert sequence (change.apply entry) }
    else state

/-- The drop of a guard. -/
def drop (sequence : Nat) (state : State) : State :=
  { state with entries := state.entries.erase sequence }

/-! ## Listing -/

/-- A field that is left out when there is nothing in it. -/
def field (key : String) (value : Option Value) : List (String × Value) :=
  value.toList.map fun value => (key, value)

def socket_text (address : SocketAddr) : String :=
  match address.ip with
  | .V4 ip => String.ofList (ip.text ++ ':' :: Nat.toDigits 10 address.port.toNat)
  | .V6 ip => String.ofList ('[' :: ip.text ++ ']' :: ':' :: Nat.toDigits 10 address.port.toNat)

def number (n : Nat) : Value :=
  .number (.PosInt (UInt64.ofNat n))

def target_value (target : zc.Target) : Value :=
  .object [("host", .string target.host), ("port", number target.port.toNat)]

def rule_value (rule : RuleView) : Value :=
  .object [("index", number rule.index), ("payload", .string rule.payload), ("target", .string rule.target),
    ("type", .string rule.kind)]

def proxy_value (proxy : ProxyView) : Value :=
  .object [("name", .string proxy.name), ("type", .string proxy.kind)]

/-- One connection of a listing. -/
structure View where
  metadata : Metadata
  rule : Option RuleView
  proxy : Option ProxyView

def View.value (view : View) : Value :=
  .object (field "datagram_source" (view.metadata.datagram_source.map fun source => .string (socket_text source)) ++
    field "id" (some (.string view.metadata.id)) ++
    field "inbound" (view.metadata.inbound.map fun inbound => .string inbound.name) ++
    field "phase" (some (.string view.metadata.phase.name)) ++
    field "protocol" (some (.string view.metadata.protocol.name)) ++
    field "proxy" (view.proxy.map proxy_value) ++
    field "routed_target" (view.metadata.routed_target.map target_value) ++
    field "rule" (view.rule.map rule_value) ++
    field "source" (some (.string (socket_text view.metadata.source))) ++
    field "target" (view.metadata.target.map target_value) ++
    field "target_scope" (view.metadata.target_scope.map .string))

def Entry.view (cfg : Config) (entry : Entry) : Result View := do
  let rule ← entry.route.mapM fun route => cfg.rule_view route.1
  let proxy ← entry.route.mapM fun route => cfg.proxy_view route.2
  pure { metadata := entry.metadata, rule, proxy }

def write_list (cfg : Config) (state : State) : Result Value := do
  let connections ← state.entries.entries.mapM fun entry => entry.2.view cfg
  pure (.object [("connections", .array (connections.map View.value))])

end zc.connection
