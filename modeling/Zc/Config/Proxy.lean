import Zc.Config.Crates
import Zc.Config.Target

namespace zc.config

structure ObfsHttp where
  host : String
  deriving DecidableEq

inductive ProxyKind where
  | Direct
  | Reject
  | Shadowsocks (server : String) (port : UInt16) (password cipher : String)
  | AnyTls (server : String) (port : UInt16) (password : String) (sni : Option String) (skip_cert_verify : Bool)
  | Trojan (server : String) (port : UInt16) (password : String) (sni : Option String) (skip_cert_verify : Bool)
  deriving DecidableEq

structure Proxy where
  name : String
  kind : ProxyKind
  udp : Bool
  obfs : Option ObfsHttp
  deriving DecidableEq

structure RawObfs where
  mode : String
  host : String

structure RawProxy where
  name : String
  kind : String
  server : String
  port : UInt16
  password : String
  cipher : Option String
  sni : Option String
  skip_cert_verify : Option Bool
  tls : Option Bool
  network : Option String
  udp : Bool
  plugin : Option String
  disable_reuse : Option Bool
  plugin_opts : Option RawObfs

structure RawGroup where
  name : String
  kind : String
  proxies : List String

/-- An entry of `proxies`, which may also declare a group. -/
inductive RawEntry where
  | Proxy (proxy : RawProxy)
  | Group (group : RawGroup)

def MAX_MEMBERS : Nat := 5122

def decode_u16 (value : Value) : Option UInt16 :=
  (value.unsigned 65536).map UInt16.ofNat

def RawObfs.deserialize (value : Value) : Option RawObfs := do
  let field ← value.fields [["mode"], ["host"]]
  let mode ← Value.required Value.as_str (field 0)
  let host ← Value.required Value.as_str (field 1)
  pure { mode, host }

def RawProxy.deserialize (value : Value) : Option RawProxy := do
  let field ← value.fields [["name"], ["type"], ["server"], ["port"], ["password"], ["cipher"], ["sni"],
    ["skip-cert-verify"], ["tls"], ["network"], ["udp"], ["plugin"], ["disable-reuse"],
    ["plugin-opts", "plugin_opts"]]
  let name ← Value.required Value.as_str (field 0)
  let kind ← Value.required Value.as_str (field 1)
  let server ← Value.defaulted "" Value.as_str (field 2)
  let port ← Value.defaulted 0 decode_u16 (field 3)
  let password ← Value.defaulted "" Value.as_str (field 4)
  let cipher ← Value.present Value.as_str (field 5)
  let sni ← Value.present Value.as_str (field 6)
  let skip_cert_verify ← Value.present Value.as_bool (field 7)
  let tls ← Value.present Value.as_bool (field 8)
  let network ← Value.present Value.as_str (field 9)
  let udp ← Value.defaulted false Value.as_bool (field 10)
  let plugin ← Value.present Value.as_str (field 11)
  let disable_reuse ← Value.present Value.as_bool (field 12)
  let plugin_opts ← Value.present RawObfs.deserialize (field 13)
  pure { name, kind, server, port, password, cipher, sni, skip_cert_verify, tls, network, udp, plugin,
         disable_reuse, plugin_opts }

def RawGroup.deserialize (value : Value) : Option RawGroup := do
  let field ← value.fields [["name"], ["type"], ["proxies"]]
  let name ← Value.required Value.as_str (field 0)
  let kind ← Value.required Value.as_str (field 1)
  let proxies ← Value.required (Value.bounded MAX_MEMBERS Value.as_str) (field 2)
  pure { name, kind, proxies }

/-- The first variant of the untagged enumeration that fits. -/
def RawEntry.deserialize (value : Value) : Option RawEntry :=
  match RawProxy.deserialize value with
  | some proxy => some (.Proxy proxy)
  | none => (RawGroup.deserialize value).map .Group

namespace RawProxy

def build_obfs (raw : RawProxy) : Result (Option ObfsHttp) :=
  match raw.plugin, raw.plugin_opts with
  | none, none => pure none
  | some plugin, some options => do
    if (plugin = "obfs" ∨ plugin = "obfs-local") ∧ raw.kind = "ss" then
      bail_if (options.mode ≠ "http" || options.host = "" || str.len options.host > 255 ||
          options.host.toList.any (fun c => c.toNat == 0 || c == '\r' || c == '\n'))
        "simple-obfs requires mode: http and a nonempty host of at most 255 bytes without NUL/CR/LF"
      pure (some { host := options.host })
    else
      bail "only Shadowsocks obfs/obfs-local with explicit HTTP options is supported"
  | _, _ => bail "only Shadowsocks obfs/obfs-local with explicit HTTP options is supported"

def canonical_cipher (cipher : Option String) : Result String :=
  if cipher = some "aes-128-gcm" then pure "aes-128-gcm"
  else if cipher = some "aes-256-gcm" then pure "aes-256-gcm"
  else if cipher = some "chacha20-ietf-poly1305" ∨ cipher = some "chacha20-poly1305" then
    pure "chacha20-ietf-poly1305"
  else bail "Shadowsocks requires a supported classic AEAD cipher"

def build_shadowsocks (raw : RawProxy) : Result ProxyKind := do
  bail_if (raw.tls = some true || raw.sni.isSome || raw.skip_cert_verify.isSome)
    "Shadowsocks TLS metadata is unsupported"
  let cipher ← canonical_cipher raw.cipher
  pure (.Shadowsocks raw.server raw.port raw.password cipher)

def check_sni (raw : RawProxy) (protocol : String) : Result Unit :=
  match raw.sni with
  | some sni => do
    bail_if (str.endsWith sni "." || (net.parse_ip sni).isSome)
      (protocol ++ " SNI must be a DNS hostname without a trailing root dot, not an IP address")
    let _ ← mapErr (.message (protocol ++ " SNI must be a valid ASCII DNS hostname")) (Target.new sni 1)
  | none =>
    bail_if (raw.skip_cert_verify != some true && (net.parse_ip raw.server).isSome)
      ("verified " ++ protocol ++ " IP server requires SNI matching the certificate's DNS hostname")

def build_tls (crates : Crates) (raw : RawProxy) : Result ProxyKind := do
  let protocol := if raw.kind = "anytls" then "AnyTLS" else "Trojan"
  bail_if (raw.kind = "anytls" && (raw.udp || raw.tls == some true))
    "AnyTLS supports native TLS/TCP only, without UDP or TLS options"
  bail_if ((raw.kind = "trojan" && raw.tls == some false) || raw.cipher.isSome)
    (protocol ++ " requires native TLS without cipher metadata")
  raw.check_sni protocol
  let tls_name := raw.sni.getD raw.server
  bail_if (!crates.server_name ((str.stripSuffix tls_name ".").getD tls_name))
    ("invalid " ++ protocol ++ " TLS server name; configure a valid SNI hostname")
  if raw.kind = "anytls" then
    pure (.AnyTls raw.server raw.port raw.password raw.sni (raw.skip_cert_verify.getD false))
  else
    pure (.Trojan raw.server raw.port raw.password raw.sni (raw.skip_cert_verify.getD false))

def build_kind (crates : Crates) (raw : RawProxy) : Result ProxyKind :=
  if raw.kind = "ss" then raw.build_shadowsocks
  else if raw.kind = "trojan" ∨ raw.kind = "anytls" then raw.build_tls crates
  else bail "unsupported proxy type; only direct, reject, ss, trojan and anytls are supported"

def build (crates : Crates) (raw : RawProxy) : Result Proxy := do
  bail_if (raw.network.any (· ≠ "tcp")) "only native proxy transport is supported; use network: tcp"
  bail_if (raw.disable_reuse.isSome && (raw.kind ≠ "anytls" || raw.disable_reuse ≠ some true))
    "disable-reuse is supported only as true for AnyTLS"
  let obfs ← raw.build_obfs
  if raw.kind = "direct" then
    pure { name := raw.name, kind := .Direct, udp := raw.udp, obfs := none }
  else if raw.kind = "reject" then
    pure { name := raw.name, kind := .Reject, udp := raw.udp, obfs := none }
  else
    bail_if (raw.password = "" || raw.password.toList.any str.isControl)
      "proxy password must be nonempty and contain no control characters"
    let _ ← mapErr (.message "proxy server/port must be a valid IP or ASCII DNS name and nonzero port")
      (Target.new raw.server raw.port)
    let kind ← raw.build_kind crates
    pure { name := raw.name, kind, udp := raw.udp, obfs }

end RawProxy

def validate_name (name : String) : Result Unit :=
  if name = "" || str.trim name ≠ name || str.contains name "," || name.toList.any str.isControl then
    bail "proxy/group name must be nonempty, unpadded and contain no commas or control characters"
  else pure ()

end zc.config
