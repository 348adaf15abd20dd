import Zc.Config.Parse
import Zc.Store.CatalogText

/-!
# Runtime descriptors

The record `zc.daemon.json` that a running instance publishes, and the checks of its reader.
-/

namespace zc.daemon

open Value store

structure Invocation where
  foreground : Bool
  prepared : Bool
  config_path : Option String
  source_path : Option String
  port_override : Option UInt16
  deriving DecidableEq

structure Descriptor where
  schema_version : UInt32
  pid : UInt32
  nonce : String
  endpoint : Option String
  identity : Option ActiveIdentity
  generation : UInt64
  ready : Bool
  invocation : Option Invocation
  service_id : Option String
  deriving DecidableEq

def DESCRIPTOR : String := "zc.daemon.json"

def valid_hex (value : String) (length : Nat) : Bool :=
  str.len value == length && value.toList.all isHexDigit

/-! ## The JSON record -/

def u32 (value : Value) : Option UInt32 :=
  (value.unsigned (2 ^ 32)).map UInt32.ofNat

def u16 (value : Value) : Option UInt16 :=
  (value.unsigned (2 ^ 16)).map UInt16.ofNat

namespace Invocation

def encode (invocation : Invocation) : Value :=
  .object [("foreground", .bool invocation.foreground), ("prepared", .bool invocation.prepared),
    ("config_path", encode_option .string invocation.config_path),
    ("source_path", encode_option .string invocation.source_path),
    ("port_override", encode_option (fun port : UInt16 => number port.toNat) invocation.port_override)]

def decode (value : Value) : Option Invocation := do
  let field ← value.fields [["foreground"], ["prepared"], ["config_path"], ["source_path"], ["port_override"]]
  let foreground ← Value.required Value.as_bool (field 0)
  let prepared ← Value.required Value.as_bool (field 1)
  let config_path ← nullable value Value.as_str (field 2)
  let source_path ← nullable value Value.as_str (field 3)
  let port_override ← nullable value u16 (field 4)
  return { foreground, prepared, config_path, source_path, port_override }

end Invocation

namespace Descriptor

def encode (d : Descriptor) : Value :=
  .object ([("schema_version", number d.schema_version.toNat), ("pid", number d.pid.toNat), ("nonce", .string d.nonce),
    ("endpoint", encode_option .string d.endpoint), ("identity", encode_option ActiveIdentity.encode d.identity),
    ("generation", .number (.PosInt d.generation)), ("ready", .bool d.ready),
    ("invocation", encode_option Invocation.encode d.invocation)] ++
      match d.service_id with
      | none => []
      | some service_id => [("service_id", .string service_id)])

def decode (value : Value) : Option Descriptor := do
  let field ← value.fields [["schema_version"], ["pid"], ["nonce"], ["endpoint"], ["identity"], ["generation"], ["ready"],
    ["invocation"], ["service_id"]]
  let schema_version ← Value.required u32 (field 0)
  let pid ← Value.required u32 (field 1)
  let nonce ← Value.required Value.as_str (field 2)
  let endpoint ← nullable value Value.as_str (field 3)
  let identity ← nullable value ActiveIdentity.decode (field 4)
  let generation ← Value.required u64 (field 5)
  let ready ← Value.required Value.as_bool (field 6)
  let invocation ← nullable value Invocation.decode (field 7)
  let service_id ← Value.defaulted none (Value.optional Value.as_str) (field 8)
  return { schema_version, pid, nonce, endpoint, identity, generation, ready, invocation, service_id }

end Descriptor

/-! ## Reading a descriptor -/

def read_port (input : List Char) : Option (UInt16 × List Char) := do
  let input ← net.read_given_char ':' input
  let (port, input) ← net.read_number 10 input.length 65536 true input
  return (UInt16.ofNat port, input)

def read_socket_addr_v4 (input : List Char) : Option (config.SocketAddr × List Char) := do
  let (ip, input) ← net.read_ipv4_addr input
  let (port, input) ← read_port input
  return ({ ip := .V4 ip, port }, input)

/-- The text after `%`, if there is one. -/
def read_scope_id (input : List Char) : List Char :=
  match net.read_given_char '%' input with
  | none => input
  | some rest =>
    match net.read_number 10 rest.length (2 ^ 32) true rest with
    | some (_, rest) => rest
    | none => input

def read_socket_addr_v6 (input : List Char) : Option (config.SocketAddr × List Char) := do
  let input ← net.read_given_char '[' input
  let (ip, input) ← net.read_ipv6_addr input
  let input ← net.read_given_char ']' (read_scope_id input)
  let (port, input) ← read_port input
  return ({ ip := .V6 ip, port }, input)

/-- `str::parse::<SocketAddr>`: the whole text must be read. -/
def parse_socket_addr (text : String) : Option config.SocketAddr :=
  match (read_socket_addr_v4 text.toList).orElse fun _ => read_socket_addr_v6 text.toList with
  | some (address, []) => some address
  | _ => none

/-- How an address on the loopback interface is written. -/
def localhost_text (port : UInt16) : String :=
  "127.0.0.1:" ++ toString port.toNat

def valid_identity (identity : ActiveIdentity) : Bool :=
  valid_key identity.key && valid_hex identity.revision 32

def check_endpoint (endpoint : String) : Result Unit := do
  let address ← okOr (parse_socket_addr endpoint) (.message "invalid socket address syntax")
  ensure (address.ip == .V4 ⟨127, 0, 0, 1⟩ && address.port != 0 && localhost_text address.port == endpoint)
    (.message "RUNTIME_DESCRIPTOR_INVALID: invalid endpoint")

def check_invocation_path (path : String) : Result Unit :=
  ensure (path != "" && str.len path ≤ 4096 && !path.toList.contains '\x00')
    (.message "RUNTIME_DESCRIPTOR_INVALID: invalid invocation path")

def check_invocation (invocation : Invocation) : Result Unit := do
  ensure (!(invocation.prepared && invocation.foreground) && (!invocation.prepared || invocation.config_path.isSome) &&
      invocation.port_override != some 0)
    (.message "RUNTIME_DESCRIPTOR_INVALID: invalid invocation")
  [invocation.config_path, invocation.source_path].reduceOption.forM check_invocation_path

/-- What `read_descriptor` does with the bytes of the file. -/
def check_descriptor (platform : Platform) (bytes : List UInt8) : Result Descriptor := do
  let d ← okOr ((platform.from_slice bytes).bind Descriptor.decode)
    (.message "RUNTIME_DESCRIPTOR_INVALID: corrupt descriptor")
  ensure (d.schema_version == 2 && d.pid > 0 && valid_hex d.nonce 32 && line d.encode == bytes)
    (.message "RUNTIME_DESCRIPTOR_INVALID: invalid descriptor")
  ensure (d.identity.all valid_identity) (.message "RUNTIME_DESCRIPTOR_INVALID: invalid identity")
  ensure (d.identity.isSome || d.generation == 0) (.message "RUNTIME_DESCRIPTOR_INVALID: unmanaged generation")
  d.endpoint.forM check_endpoint
  ensure (d.service_id.all fun id => valid_hex id 32) (.message "RUNTIME_DESCRIPTOR_INVALID: invalid service identity")
  d.invocation.forM check_invocation
  return d

/-! ## Descriptors read back -/

theorem u32_number (n : UInt32) : u32 (number n.toNat) = some n := by
  rw [u32, unsigned_number n.toNat_lt (by decide), Option.map_some, UInt32.ofNat_toNat]

theorem u16_number (n : UInt16) : u16 (number n.toNat) = some n := by
  rw [u16, unsigned_number n.toNat_lt (by decide), Option.map_some, UInt16.ofNat_toNat]

theorem nullable_string (record : Value) (text : Option String) :
    nullable record as_str (some (encode_option .string text)) = some text :=
  nullable_encode record fun _ _ => ⟨rfl, rfl⟩

theorem Invocation.decode_encode (invocation : Invocation) : Invocation.decode invocation.encode = some invocation := by
  obtain ⟨field, hfield, hindex⟩ := fields_record ["foreground", "prepared", "config_path", "source_path", "port_override"]
    ([("foreground", .bool invocation.foreground), ("prepared", .bool invocation.prepared),
      ("config_path", encode_option .string invocation.config_path),
      ("source_path", encode_option .string invocation.source_path),
      ("port_override", encode_option (fun port : UInt16 => number port.toNat) invocation.port_override)])
    (by decide) (by simp)
  have hport : nullable invocation.encode u16
      (some (encode_option (fun port : UInt16 => number port.toNat) invocation.port_override)) =
        some invocation.port_override := nullable_encode _ fun port _ => ⟨rfl, u16_number port⟩
  unfold decode
  rw [show invocation.encode.fields [["foreground"], ["prepared"], ["config_path"], ["source_path"], ["port_override"]] =
    some field from hfield]
  simp [hindex, required, as_bool, nullable_string, hport]

/-- The entries a descriptor always has. -/
def Descriptor.entries (d : Descriptor) : List (String × Value) :=
  [("schema_version", number d.schema_version.toNat), ("pid", number d.pid.toNat), ("nonce", .string d.nonce),
    ("endpoint", encode_option .string d.endpoint), ("identity", encode_option ActiveIdentity.encode d.identity),
    ("generation", .number (.PosInt d.generation)), ("ready", .bool d.ready),
    ("invocation", encode_option Invocation.encode d.invocation)]

theorem Descriptor.decode_encode (d : Descriptor) : Descriptor.decode d.encode = some d := by
  have hidentity : nullable d.encode ActiveIdentity.decode (some (encode_option ActiveIdentity.encode d.identity)) =
      some d.identity := nullable_encode _ fun identity _ => ⟨rfl, identity.decode_encode⟩
  have hinvocation : nullable d.encode Invocation.decode (some (encode_option Invocation.encode d.invocation)) =
      some d.invocation := nullable_encode _ fun invocation _ => ⟨rfl, invocation.decode_encode⟩
  have hfields : ∃ field, d.encode.fields [["schema_version"], ["pid"], ["nonce"], ["endpoint"], ["identity"],
      ["generation"], ["ready"], ["invocation"], ["service_id"]] = some field ∧
      (∀ index < 8, field index = (d.entries[index]?).map Prod.snd) ∧ field 8 = d.service_id.map .string := by
    obtain ⟨field, hfield, hindex⟩ := fields_record ["schema_version", "pid", "nonce", "endpoint", "identity", "generation",
      "ready", "invocation", "service_id"]
      (d.entries ++ match d.service_id with
        | none => []
        | some service_id => [("service_id", .string service_id)]) (by decide) (by
          cases d.service_id with
          | none => exact ⟨["service_id"], rfl⟩
          | some service_id => exact ⟨[], rfl⟩)
    refine ⟨field, hfield, ?_, ?_⟩
    · intro index hlt
      rw [hindex, List.getElem?_append_left hlt]
    · rw [hindex]
      cases d.service_id <;> rfl
  obtain ⟨field, hfield, hindex, hservice⟩ := hfields
  unfold decode
  rw [hfield]
  have hid : defaulted none (Value.optional as_str) (d.service_id.map .string) = some d.service_id := by
    cases d.service_id <;> rfl
  simp [hindex, hservice, hid, entries, required, as_bool, as_str, u64, u32_number, nullable_string, hidentity, hinvocation]

theorem Invocation.plain_encode (invocation : Invocation) : invocation.encode.Plain 1 := by
  obtain ⟨foreground, prepared, config_path, source_path, port_override⟩ := invocation
  cases config_path <;> cases source_path <;> cases port_override <;> simp [encode, encode_option, Plain, store.number]

theorem Descriptor.plain_encode (d : Descriptor) : d.encode.Plain 2 := by
  have hoption : ∀ {α : Type} (encode : α → Value) (value : Option α), (∀ inner, (encode inner).Plain 1) →
      (encode_option encode value).Plain 1 := by
    intro α encode value hvalue
    cases value with
    | none => trivial
    | some inner => exact hvalue inner
  have hentries : ∀ entry ∈ d.entries, entry.2.Plain 1 := by
    simp only [entries, List.forall_mem_cons, List.not_mem_nil, IsEmpty.forall_iff, implies_true, and_true]
    refine ⟨trivial, trivial, trivial, hoption _ _ fun _ => trivial, hoption _ _ fun identity => ?_, trivial, trivial,
      hoption _ _ fun invocation => invocation.plain_encode⟩
    simp [ActiveIdentity.encode, Plain]
  intro entry hentry
  obtain hentry | hentry := List.mem_append.1 hentry
  · exact hentries entry hentry
  · cases hservice : d.service_id with
    | none => simp [hservice] at hentry
    | some service_id =>
      rw [hservice] at hentry
      obtain rfl := List.mem_singleton.1 hentry
      trivial

/-- A published descriptor is read back as it was written. -/
theorem from_slice_descriptor (platform : Platform) (d : Descriptor) :
    (platform.from_slice (line d.encode)).bind Descriptor.decode = some d := by
  rw [line, platform.from_slice_line _ (d.plain_encode.mono (by decide)), Option.bind_some, d.decode_encode]

end zc.daemon
