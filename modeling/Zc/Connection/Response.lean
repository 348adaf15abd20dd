import Zc.Connection.Texts

/-!
# Checked listings

`connection::valid_response`, which the client applies to every listing, and what an entry has to
be like for its view to pass.
-/

namespace zc.connection

open config (Config Route RuleView ProxyView SocketAddr)
open daemon (parse_socket_addr)

/-- All the required keys, and none but these and the optional ones. -/
def keys (value : Value) (required optional : List String) : Bool :=
  value.as_object.any fun map =>
    required.all (fun key => map.any (·.1 == key)) &&
      map.all fun entry => required.contains entry.1 || optional.contains entry.1

/-- `value[key]`, null where there is no such key. -/
def index (value : Value) (key : String) : Value :=
  (value.get key).getD .null

def has (value : Value) (key : String) : Bool :=
  (value.get key).isSome

/-- `value[key] == text`. -/
def is (value : Value) (key text : String) : Bool :=
  (index value key).as_str == some text

/-- `value[key]` is one of the texts. -/
def is_one (value : Value) (key : String) (texts : List String) : Bool :=
  (index value key).as_str.any texts.contains

def valid_target (value : Value) : Bool :=
  keys value ["host", "port"] [] && (index value "host").as_str.any (fun host => host ≠ "" && str.len host ≤ 255) &&
    (index value "port").as_u64.any fun port => 1 ≤ port && port ≤ 65535

def is_address (value : Value) : Bool :=
  value.as_str.any fun text => (parse_socket_addr text).isSome

/-- The fields one by one. -/
def valid_fields (e : Value) : Bool :=
  is_address (index e "source") && is_one e "protocol" ["tcp", "udp"] &&
    is_one e "phase" ["handshake", "routing", "connecting", "active", "idle", "udp_wait", "rejected", "closing"] &&
    (!has e "inbound" || is_one e "inbound" ["http_connect", "http_forward", "socks5_connect", "socks5_udp"]) &&
    (e.get "target").all valid_target && (e.get "routed_target").all valid_target &&
    (e.get "datagram_source").all is_address &&
    (!has e "target_scope" || (is e "target_scope" "first_datagram" && is e "protocol" "udp" && has e "datagram_source"))

def valid_rule (value : Value) : Bool :=
  keys value ["index", "type", "payload", "target"] [] && (index value "index").as_u64.any (· < 262144) &&
    (index value "type").as_str.isSome && (index value "payload").as_str.isSome && (index value "target").as_str.isSome

def valid_proxy (value : Value) : Bool :=
  keys value ["name", "type"] [] && (index value "name").as_str.isSome &&
    is_one value "type" ["Direct", "Reject", "Shadowsocks", "Trojan", "AnyTLS"]

/-- A rule, a proxy and a routed target come together. -/
def valid_route (e : Value) : Bool :=
  has e "rule" == has e "proxy" && has e "rule" == has e "routed_target" && (e.get "rule").all valid_rule &&
    (e.get "proxy").all valid_proxy

/-- What each phase asks of the other fields. -/
def valid_phase (e : Value) : Bool :=
  (!is_one e "phase" ["idle", "handshake", "udp_wait"] || !(has e "target" || has e "rule")) &&
    (!is_one e "phase" ["active", "connecting", "rejected"] || (has e "target" && has e "rule" && has e "inbound")) &&
    (!is e "phase" "routing" || (has e "target" && !has e "rule"))

def valid_datagram (e : Value) : Bool :=
  let udp := is e "protocol" "udp"
  let datagram := udp && has e "target"
  udp == is e "inbound" "socks5_udp" && (!is e "phase" "udp_wait" || udp) && !(is e "phase" "handshake" && udp) &&
    has e "datagram_source" == datagram && has e "target_scope" == datagram &&
    (!is e "phase" "idle" || is e "inbound" "http_forward") && (!has e "routed_target" || has e "target")

def valid_entry (nonce id : String) (e : Value) : Bool :=
  keys e ["id", "source", "protocol", "phase"]
      ["inbound", "target", "routed_target", "rule", "proxy", "datagram_source", "target_scope"] &&
    (split_id id).any (·.1 == nonce) && valid_fields e && valid_route e && valid_phase e && valid_datagram e

/-- The loop over the connections with the ids seen so far. -/
def valid_entries (nonce : String) : (ids : List String) → List Value → Bool
  | _, [] => true
  | ids, e :: entries =>
    match (index e "id").as_str with
    | none => false
    | some id => valid_entry nonce id e && !ids.contains id && valid_entries nonce (id :: ids) entries

def valid_response (value : Value) (nonce : String) : (id : Option String) → Bool
  | some id =>
    keys value ["id", "phase", "close_requested"] [] && is value "id" id && is value "phase" "closing" &&
      (index value "close_requested").as_bool == some true
  | none =>
    keys value ["connections"] [] &&
      (index value "connections").as_array.any fun entries => entries.length ≤ LIMIT && valid_entries nonce [] entries

/-! ## Views -/

section View

variable {view : View}

theorem lookup_field (key : String) (value : Option Value) (other : String) :
    (field key value).lookup other = if other = key then value else none := by
  cases value with
  | none => simp [field]
  | some value =>
    rw [field, Option.toList_some, List.map_singleton, List.lookup_cons]
    by_cases heq : other = key
    · rw [heq, beq_self_eq_true, if_pos rfl]
    · rw [beq_false_of_ne heq, if_neg heq]
      rfl

@[simp]
theorem get_id : view.value.get "id" = some (.string view.metadata.id) := by
  simp [View.value, Value.get, List.lookup_append, lookup_field]

@[simp]
theorem get_source : view.value.get "source" = some (.string (socket_text view.metadata.source)) := by
  simp [View.value, Value.get, List.lookup_append, lookup_field]

@[simp]
theorem get_protocol : view.value.get "protocol" = some (.string view.metadata.protocol.name) := by
  simp [View.value, Value.get, List.lookup_append, lookup_field]

@[simp]
theorem get_phase : view.value.get "phase" = some (.string view.metadata.phase.name) := by
  simp [View.value, Value.get, List.lookup_append, lookup_field]

@[simp]
theorem get_inbound : view.value.get "inbound" = view.metadata.inbound.map fun inbound => .string inbound.name := by
  simp [View.value, Value.get, List.lookup_append, lookup_field]

@[simp]
theorem get_target : view.value.get "target" = view.metadata.target.map target_value := by
  simp [View.value, Value.get, List.lookup_append, lookup_field]

@[simp]
theorem get_routed_target : view.value.get "routed_target" = view.metadata.routed_target.map target_value := by
  simp [View.value, Value.get, List.lookup_append, lookup_field]

@[simp]
theorem get_rule : view.value.get "rule" = view.rule.map rule_value := by
  simp [View.value, Value.get, List.lookup_append, lookup_field]

@[simp]
theorem get_proxy : view.value.get "proxy" = view.proxy.map proxy_value := by
  simp [View.value, Value.get, List.lookup_append, lookup_field]

@[simp]
theorem get_datagram_source :
    view.value.get "datagram_source" = view.metadata.datagram_source.map fun source => .string (socket_text source) := by
  simp [View.value, Value.get, List.lookup_append, lookup_field]

@[simp]
theorem get_target_scope : view.value.get "target_scope" = view.metadata.target_scope.map .string := by
  simp [View.value, Value.get, List.lookup_append, lookup_field]

theorem protocol_text : (index view.value "protocol").as_str = some view.metadata.protocol.name := by
  rw [index, get_protocol]
  rfl

theorem phase_text : (index view.value "phase").as_str = some view.metadata.phase.name := by
  rw [index, get_phase]
  rfl

theorem inbound_text : (index view.value "inbound").as_str = view.metadata.inbound.map Inbound.name := by
  rw [index, get_inbound]
  cases view.metadata.inbound <;> rfl

theorem target_scope_text : (index view.value "target_scope").as_str = view.metadata.target_scope := by
  rw [index, get_target_scope]
  cases view.metadata.target_scope <;> rfl

theorem fst_of_mem_field {key : String} {value : Option Value} {entry : String × Value} (hmem : entry ∈ field key value) :
    entry.1 = key := by
  obtain ⟨found, -, rfl⟩ := List.mem_map.1 hmem
  rfl

theorem any_key_of_lookup {map : List (String × Value)} {key : String} (hkey : (map.lookup key).isSome = true) :
    map.any (·.1 == key) = true := by
  obtain ⟨entry, hentry, heq⟩ := List.lookup_isSome_iff.1 hkey
  exact List.any_eq_true.2 ⟨entry, hentry, beq_iff_eq.2 (beq_iff_eq.1 heq).symm⟩

theorem keys_view : keys view.value ["id", "source", "protocol", "phase"]
    ["inbound", "target", "routed_target", "rule", "proxy", "datagram_source", "target_scope"] = true := by
  have hget : ∀ key ∈ ["id", "source", "protocol", "phase"], (view.value.get key).isSome = true := by
    simp
  rw [keys, View.value, Value.as_object, Option.any_some, Bool.and_eq_true, List.all_eq_true, List.all_eq_true]
  refine ⟨fun key hkey => any_key_of_lookup (hget key hkey), fun entry hentry => ?_⟩
  simp only [List.mem_append, or_assoc] at hentry
  rcases hentry with h | h | h | h | h | h | h | h | h | h | h
  all_goals
    rw [fst_of_mem_field h]
    decide

end View

/-! ## Entries that can be listed -/

/-- What holds of an entry in every phase. -/
structure Shape (cfg : Config) (entry : Entry) : Prop where
  target : ∀ target, entry.metadata.target = some target → Made target
  routed_target : ∀ target, entry.metadata.routed_target = some target → Made target
  route : entry.route.isSome = entry.metadata.routed_target.isSome
  below : ∀ rule leaf, entry.route = some (rule, leaf) → rule < cfg.rules.length ∧ leaf < cfg.proxies.length
  routed : entry.metadata.routed_target.isSome = true → entry.metadata.target.isSome = true
  udp : entry.metadata.protocol = .Udp ↔ entry.metadata.inbound = some .Socks5Udp
  datagram : entry.metadata.datagram_source.isSome = true ↔
    entry.metadata.protocol = .Udp ∧ entry.metadata.target.isSome = true
  scope : entry.metadata.target_scope = entry.metadata.datagram_source.map fun _ => "first_datagram"

/-- What each phase asks for; an entry that is closing may be anything. -/
def Fits (entry : Entry) : Prop :=
  match entry.metadata.phase with
  | .Handshake => entry.metadata.protocol = .Tcp ∧ entry.metadata.target = none ∧ entry.route = none
  | .UdpWait => entry.metadata.protocol = .Udp ∧ entry.metadata.target = none ∧ entry.route = none
  | .Idle => entry.metadata.inbound = some .HttpForward ∧ entry.metadata.target = none ∧ entry.route = none
  | .Routing => entry.metadata.target.isSome = true ∧ entry.route = none
  | .Connecting | .Active | .Rejected =>
    entry.metadata.target.isSome = true ∧ entry.route.isSome = true ∧ entry.metadata.inbound.isSome = true
  | .Closing => True

/-- The view of an entry whose route is one of the configuration. -/
structure Shows (cfg : Config) (entry : Entry) (view : View) : Prop where
  metadata : view.metadata = entry.metadata
  rule : view.rule.isSome = entry.route.isSome
  proxy : view.proxy.isSome = entry.route.isSome
  index : ∀ rule, view.rule = some rule → rule.index < cfg.rules.length
  label : ∀ proxy, view.proxy = some proxy → ∃ kind : config.ProxyKind, proxy.kind = kind.label

theorem exists_view {cfg : Config} (hcfg : cfg.WellFormed) {entry : Entry}
    (hbelow : ∀ rule leaf, entry.route = some (rule, leaf) → rule < cfg.rules.length ∧ leaf < cfg.proxies.length) :
    ∃ view, entry.view cfg = .ok view ∧ Shows cfg entry view := by
  cases hroute : entry.route with
  | none =>
    refine ⟨⟨entry.metadata, none, none⟩, ?_, rfl, by rw [hroute]; rfl, by rw [hroute]; rfl, nofun, nofun⟩
    rw [Entry.view, hroute]
    rfl
  | some route =>
    obtain ⟨rule, leaf⟩ := route
    obtain ⟨hrule, hleaf⟩ := hbelow rule leaf hroute
    obtain ⟨target, htarget⟩ := Config.exists_node_name (hcfg.rules_below _ (List.getElem_mem hrule))
    refine ⟨⟨entry.metadata, some ⟨rule, cfg.rules[rule].kind, cfg.rules[rule].payload, target⟩,
      some ⟨cfg.proxies[leaf].name, cfg.proxies[leaf].kind.label⟩⟩, ?_, rfl, by rw [hroute]; rfl, by rw [hroute]; rfl, ?_, ?_⟩
    · have hview : cfg.rule_view rule = .ok ⟨rule, cfg.rules[rule].kind, cfg.rules[rule].payload, target⟩ := by
        simp only [Config.rule_view, List.getElem?_eq_getElem hrule, bind_eq_ok_iff, okOr_eq_ok_iff]
        exact ⟨_, rfl, target, htarget, rfl⟩
      have hproxy : cfg.proxy_view leaf = .ok ⟨cfg.proxies[leaf].name, cfg.proxies[leaf].kind.label⟩ := by
        simp only [Config.proxy_view, List.getElem?_eq_getElem hleaf, bind_eq_ok_iff, okOr_eq_ok_iff]
        exact ⟨_, rfl, rfl⟩
      simp only [Entry.view, hroute, Option.mapM_some, hview, hproxy]
      rfl
    · rintro _ ⟨⟩
      exact hrule
    · rintro _ ⟨⟩
      exact ⟨_, rfl⟩

theorem valid_target_value {target : zc.Target} (hmade : Made target) : valid_target (target_value target) = true := by
  obtain ⟨hne, hlen⟩ := hmade.host
  have hpos : 1 ≤ target.port.toNat := by
    rw [Nat.one_le_iff_ne_zero]
    exact fun heq => target.port_ne_zero (UInt16.toNat_inj.1 heq)
  have hlt : target.port.toNat < 65536 := target.port.toNat_lt
  have hport : (index (target_value target) "port").as_u64 = some target.port.toNat := by
    change some (UInt64.ofNat target.port.toNat).toNat = _
    rw [UInt64.toNat_ofNat_of_lt' (hlt.trans (by decide))]
  have hhost : (index (target_value target) "host").as_str = some target.host := rfl
  have hkeys : keys (target_value target) ["host", "port"] [] = true := rfl
  rw [valid_target, hkeys, hhost, hport, Option.any_some, Option.any_some]
  simp only [Bool.true_and, Bool.and_eq_true, decide_eq_true_eq]
  exact ⟨⟨hne, hlen⟩, hpos, by omega⟩

theorem valid_rule_value {rule : RuleView} (hindex : rule.index < 262144) : valid_rule (rule_value rule) = true := by
  have hnumber : (index (rule_value rule) "index").as_u64 = some rule.index := by
    change some (UInt64.ofNat rule.index).toNat = _
    rw [UInt64.toNat_ofNat_of_lt' (hindex.trans (by decide))]
  have hkeys : keys (rule_value rule) ["index", "type", "payload", "target"] [] = true := rfl
  have htype : (index (rule_value rule) "type").as_str = some rule.kind := rfl
  have hpayload : (index (rule_value rule) "payload").as_str = some rule.payload := rfl
  have htarget : (index (rule_value rule) "target").as_str = some rule.target := rfl
  rw [valid_rule, hkeys, hnumber, htype, hpayload, htarget, Option.any_some, decide_eq_true hindex]
  rfl

theorem valid_proxy_value {proxy : ProxyView} {kind : config.ProxyKind} (hkind : proxy.kind = kind.label) :
    valid_proxy (proxy_value proxy) = true := by
  have hkeys : keys (proxy_value proxy) ["name", "type"] [] = true := rfl
  have hname : (index (proxy_value proxy) "name").as_str = some proxy.name := rfl
  have htype : (index (proxy_value proxy) "type").as_str = some kind.label := hkind ▸ rfl
  rw [valid_proxy, hkeys, hname, is_one, htype]
  cases kind <;> rfl

section Entries

variable {cfg : Config} {entry : Entry} {view : View}

theorem valid_fields_view (hshape : Shape cfg entry) (hshows : Shows cfg entry view) : valid_fields view.value = true := by
  have haddress : ∀ source, is_address (.string (socket_text source)) = true := by
    intro source
    rw [is_address, Value.as_str, Option.any_some, parse_socket_text]
    rfl
  have htargets : ∀ target : Option zc.Target, (∀ found, target = some found → Made found) →
      (target.map target_value).all valid_target = true := by
    intro target hmade
    cases target with
    | none => rfl
    | some target => exact valid_target_value (hmade target rfl)
  have hscope : (!has view.value "target_scope" || (is view.value "target_scope" "first_datagram" &&
      is view.value "protocol" "udp" && has view.value "datagram_source")) = true := by
    simp only [has, is, get_target_scope, get_datagram_source, target_scope_text, protocol_text, Option.isSome_map,
      hshows.metadata, hshape.scope]
    cases hsource : entry.metadata.datagram_source with
    | none => rfl
    | some source =>
      rw [(hshape.datagram.1 (by rw [hsource]; rfl)).1]
      rfl
  have hprotocol : is_one view.value "protocol" ["tcp", "udp"] = true := by
    rw [is_one, protocol_text]
    cases view.metadata.protocol <;> rfl
  have hphase : is_one view.value "phase"
      ["handshake", "routing", "connecting", "active", "idle", "udp_wait", "rejected", "closing"] = true := by
    rw [is_one, phase_text]
    cases view.metadata.phase <;> rfl
  have hinbound : (!has view.value "inbound" ||
      is_one view.value "inbound" ["http_connect", "http_forward", "socks5_connect", "socks5_udp"]) = true := by
    rw [has, get_inbound, is_one, inbound_text]
    rcases view.metadata.inbound with _ | (_ | _ | _ | _) <;> rfl
  have hsource : is_address (index view.value "source") = true := by
    rw [index, get_source]
    exact haddress _
  have hdatagram : (view.value.get "datagram_source").all is_address = true := by
    rw [get_datagram_source]
    cases view.metadata.datagram_source with
    | none => rfl
    | some source => exact haddress source
  have htarget : (view.value.get "target").all valid_target = true := by
    rw [get_target, hshows.metadata]
    exact htargets _ hshape.target
  have hrouted : (view.value.get "routed_target").all valid_target = true := by
    rw [get_routed_target, hshows.metadata]
    exact htargets _ hshape.routed_target
  rw [valid_fields, hsource, hprotocol, hphase, hinbound, htarget, hrouted, hdatagram, hscope]
  rfl

theorem valid_route_view (hrules : cfg.rules.length ≤ config.MAX_RULES) (hshape : Shape cfg entry) (hshows : Shows cfg entry view) :
    valid_route view.value = true := by
  simp only [valid_route, has, get_rule, get_proxy, get_routed_target, Option.isSome_map, hshows.metadata, hshows.rule,
    hshows.proxy, hshape.route, beq_self_eq_true, Bool.true_and, Bool.and_eq_true]
  constructor
  · cases hrule : view.rule with
    | none => rfl
    | some rule => exact valid_rule_value ((hshows.index rule hrule).trans_le hrules)
  · cases hproxy : view.proxy with
    | none => rfl
    | some proxy =>
      obtain ⟨kind, hkind⟩ := hshows.label proxy hproxy
      exact valid_proxy_value hkind

theorem valid_phase_view (hfits : Fits entry) (hshows : Shows cfg entry view) : valid_phase view.value = true := by
  simp only [valid_phase, is, is_one, has, get_target, get_rule, get_inbound, phase_text, Option.isSome_map, hshows.metadata,
    hshows.rule, Option.any_some]
  unfold Fits at hfits
  cases hphase : entry.metadata.phase with
  | Handshake | UdpWait | Idle =>
    rw [hphase] at hfits
    rw [hfits.2.1, hfits.2.2]
    rfl
  | Routing =>
    rw [hphase] at hfits
    rw [hfits.1, hfits.2]
    rfl
  | Connecting | Active | Rejected =>
    rw [hphase] at hfits
    rw [hfits.1, hfits.2.1, hfits.2.2]
    rfl
  | Closing => rfl

theorem is_udp (hshows : Shows cfg entry view) : is view.value "protocol" "udp" = (entry.metadata.protocol == .Udp) := by
  rw [is, protocol_text, hshows.metadata]
  cases entry.metadata.protocol <;> rfl

theorem is_socks5_udp (hshows : Shows cfg entry view) :
    is view.value "inbound" "socks5_udp" = (entry.metadata.inbound == some .Socks5Udp) := by
  rw [is, inbound_text, hshows.metadata]
  rcases entry.metadata.inbound with _ | (_ | _ | _ | _) <;> rfl

theorem valid_datagram_view (hshape : Shape cfg entry) (hfits : Fits entry) (hshows : Shows cfg entry view) :
    valid_datagram view.value = true := by
  have hinbound : (entry.metadata.protocol == .Udp) = (entry.metadata.inbound == some .Socks5Udp) := by
    rw [Bool.eq_iff_iff, beq_iff_eq, beq_iff_eq]
    exact hshape.udp
  have hwait : (!is view.value "phase" "udp_wait" || entry.metadata.protocol == .Udp) = true := by
    rw [is, phase_text, hshows.metadata]
    unfold Fits at hfits
    cases hphase : entry.metadata.phase <;> rw [hphase] at hfits <;> first | rfl | rw [hfits.1]; rfl
  have hhandshake : (!(is view.value "phase" "handshake" && entry.metadata.protocol == .Udp)) = true := by
    rw [is, phase_text, hshows.metadata]
    unfold Fits at hfits
    cases hphase : entry.metadata.phase <;> rw [hphase] at hfits <;> first | rfl | rw [hfits.1]; rfl
  have hidle : (!is view.value "phase" "idle" || is view.value "inbound" "http_forward") = true := by
    rw [is, phase_text, is, inbound_text, hshows.metadata]
    unfold Fits at hfits
    cases hphase : entry.metadata.phase <;> rw [hphase] at hfits <;> first | rfl | rw [hfits.1]; rfl
  have hdatagram : has view.value "datagram_source" = (entry.metadata.protocol == .Udp && has view.value "target") := by
    rw [has, has, get_datagram_source, get_target, Option.isSome_map, Option.isSome_map, hshows.metadata, Bool.eq_iff_iff,
      Bool.and_eq_true, beq_iff_eq]
    exact hshape.datagram
  have hscope : has view.value "target_scope" = has view.value "datagram_source" := by
    rw [has, has, get_datagram_source, get_target_scope, Option.isSome_map, Option.isSome_map, hshows.metadata, hshape.scope,
      Option.isSome_map]
  have hrouted : (!has view.value "routed_target" || has view.value "target") = true := by
    rw [has, has, get_routed_target, get_target, Option.isSome_map, Option.isSome_map, hshows.metadata]
    have hrouted := hshape.routed
    cases hsome : entry.metadata.routed_target.isSome
    · rfl
    · rw [hrouted hsome]
      rfl
  rw [valid_datagram, is_udp hshows, is_socks5_udp hshows, ← hinbound, hwait, hhandshake, hscope, hdatagram, hidle, hrouted]
  simp only [beq_self_eq_true, Bool.and_self]

/-- An entry in a shape that its phase allows is listed as the client expects it. -/
theorem valid_entry_view {nonce : String} {sequence : Nat} (hlen : str.len nonce = 32) (hhex : nonce.toList.all isHexDigit = true)
    (hpos : 0 < sequence) (hsequence : sequence < 2 ^ 64) (hrules : cfg.rules.length ≤ config.MAX_RULES)
    (hshape : Shape cfg entry) (hfits : Fits entry) (hshows : Shows cfg entry view) :
    valid_entry nonce (connection_id nonce sequence) view.value = true := by
  rw [valid_entry, keys_view, split_connection_id hlen hhex hpos hsequence, valid_fields_view hshape hshows,
    valid_route_view hrules hshape hshows, valid_phase_view hfits hshows, valid_datagram_view hshape hfits hshows,
    Option.any_some, beq_self_eq_true]
  rfl

end Entries

/-- Distinct ids pass the loop. -/
theorem valid_entries_of_nodup {nonce : String} {entries : List Value} {ids texts : List String}
    (hids : List.Forall₂ (fun text e => (index e "id").as_str = some text ∧ valid_entry nonce text e = true) texts entries)
    (hnodup : texts.Nodup) (hnew : ∀ text ∈ texts, text ∉ ids) : valid_entries nonce ids entries = true := by
  induction hids generalizing ids with
  | nil => rfl
  | @cons text e texts entries hentry _ ih =>
    rw [List.nodup_cons] at hnodup
    have hfresh : ids.contains text = false := by
      rw [List.contains_eq_mem, decide_eq_false_iff_not]
      exact hnew text List.mem_cons_self
    have hrest : valid_entries nonce (text :: ids) entries = true := by
      refine ih hnodup.2 fun other hother => ?_
      rw [List.mem_cons, not_or]
      exact ⟨fun heq => hnodup.1 (heq ▸ hother), hnew other (List.mem_cons_of_mem _ hother)⟩
    rw [valid_entries, hentry.1]
    simp only [hentry.2, hfresh, hrest, Bool.not_false, Bool.and_self]

end zc.connection
