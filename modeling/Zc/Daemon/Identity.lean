import Zc.Api.Route
import Zc.Store.Authority

/-!
# Identities of the catalog at runtime

A catalog may hold keys of up to 255 bytes, while a running instance, its descriptor and the requests
of its controller take at most 250. Then the descriptor on disk and the group in the path of a
selection.
-/

namespace zc.daemon

open store

/-! ## What an instance publishes -/

/-- What `run_instance` adds to the prepared record: the process, a fresh nonce, the path of the
    snapshot and the service. -/
structure Launch where
  pid : UInt32
  nonce : String
  path : String
  service_id : Option String
  pid_pos : 0 < pid
  nonce_valid : valid_hex nonce 32 = true
  path_valid : check_invocation_path path = .ok ()
  service_valid : service_id.all (fun id => valid_hex id 32) = true

def Launch.descriptor (launch : Launch) (prepared : Prepared) (cfg : config.Config) (ready : Bool) : Descriptor where
  schema_version := 2
  pid := launch.pid
  nonce := launch.nonce
  endpoint := client_endpoint cfg
  identity := prepared.identity
  generation := prepared.generation
  ready := ready
  invocation := some { prepared.invocation with
    prepared := !prepared.invocation.foreground, config_path := some launch.path }
  service_id := launch.service_id

/-- The invocations that `prepare` makes: no port zero, and a source path that can be opened. -/
structure Invocation.Valid (invocation : Invocation) : Prop where
  port : invocation.port_override ≠ some 0
  source_path : ∀ path ∈ invocation.source_path, check_invocation_path path = .ok ()

theorem read_number_all {n bound : Nat} (hn : n < bound) :
    net.read_number 10 (Nat.toDigits 10 n).length bound true (Nat.toDigits 10 n) = some (n, []) := by
  have hpos : 0 < (Nat.toDigits 10 n).length := Nat.length_toDigits_pos
  have hpow : n < 10 ^ (Nat.toDigits 10 n).length := (Nat.length_toDigits_le_iff (by decide) hpos).1 (Nat.le_refl _)
  have hread : net.read_number 10 (Nat.toDigits 10 n).length bound true (Nat.toDigits 10 n ++ []) = some (n, []) :=
    net.read_number_toDigits (by decide) (by decide) hpos hn hpow nofun
  rwa [List.append_nil] at hread

theorem parse_localhost (port : UInt16) :
    parse_socket_addr (localhost_text port) = some ⟨.V4 ⟨127, 0, 0, 1⟩, port⟩ := by
  have htext : (localhost_text port).toList =
      '1' :: '2' :: '7' :: '.' :: '0' :: '.' :: '0' :: '.' :: '1' :: ':' :: Nat.toDigits 10 port.toNat := by
    have hdigits : (toString port.toNat).toList = Nat.toDigits 10 port.toNat := by
      simp [toString, Nat.repr]
    rw [localhost_text, String.toList_append, hdigits]
    rfl
  have haddress : ∀ rest : List Char, net.read_ipv4_addr
      ('1' :: '2' :: '7' :: '.' :: '0' :: '.' :: '0' :: '.' :: '1' :: ':' :: rest) = some (⟨127, 0, 0, 1⟩, ':' :: rest) :=
    fun _ => rfl
  have hport : read_port (':' :: Nat.toDigits 10 port.toNat) = some (port, []) := by
    simp only [read_port, net.read_given_char_cons, Option.bind_eq_bind, Option.bind_some, read_number_all port.toNat_lt]
    simp
  have hread : read_socket_addr_v4 (localhost_text port).toList = some (⟨.V4 ⟨127, 0, 0, 1⟩, port⟩, []) := by
    simp only [read_socket_addr_v4, htext, haddress, hport, Option.bind_eq_bind, Option.bind_some, Option.pure_def]
  rw [parse_socket_addr, hread]
  rfl

theorem check_client_endpoint {cfg : config.Config} (hports : ∀ address ∈ cfg.controller, address.port ≠ 0) :
    (client_endpoint cfg).forM check_endpoint = .ok () := by
  unfold client_endpoint
  cases hcontroller : cfg.controller with
  | none => rfl
  | some address =>
    have hport : address.port ≠ 0 := hports address (by rw [hcontroller]; rfl)
    show check_endpoint (localhost_text address.port) = .ok ()
    simp only [check_endpoint, parse_localhost, bind_eq_ok_iff, okOr_eq_ok_iff, ensure_eq_ok_iff, Bool.and_eq_true, bne_iff_ne,
      beq_iff_eq]
    exact ⟨_, rfl, ⟨⟨rfl, hport⟩, rfl⟩⟩

/-! ## Identities that can be run -/

/-- An identity that stands in the way of nothing. -/
structure Runs (platform : Platform) (identity : ActiveIdentity) : Prop where
  /-- `parse_config` has no objection to it. -/
  prepared : ∀ prepared : Prepared, prepared.identity = some identity →
    check_prepared { prepared with identity := none, generation := 0 } = .ok () → check_prepared prepared = .ok ()
  /-- The published descriptor is read back. -/
  descriptor : ∀ (launch : Launch) (prepared : Prepared) (cfg : config.Config) (ready : Bool),
    prepared.identity = some identity → prepared.invocation.Valid → (∀ address ∈ cfg.controller, address.port ≠ 0) →
    check_descriptor platform (line (launch.descriptor prepared cfg ready).encode) = .ok (launch.descriptor prepared cfg ready)
  /-- A request that names it passes the check of its metadata. -/
  request : ∀ (body : Value) (nonce : String) (generation : Nat), body.get "instance_nonce" = some (.string nonce) →
    valid_hex nonce 32 = true → body.get "identity_key" = some (.string identity.key) →
    body.get "identity_revision" = some (.string identity.revision) →
    (body.get "generation").bind Value.as_u64 = some generation → generation ≠ 0 → api.selection_metadata body = .ok 4

theorem valid_identity_iff {platform : Platform} {catalog : Catalog} {identity : ActiveIdentity}
    (hcatalog : catalog.Canonical platform) (hactive : catalog.active = some identity) :
    valid_identity identity = true ↔ str.len identity.key ≤ 250 := by
  obtain ⟨profile, hprofile, hkey, hrevision⟩ := hcatalog.active identity hactive
  have hstored := hcatalog.key profile hprofile
  obtain ⟨bytes, hhead⟩ := hcatalog.head profile hprofile
  rw [hkey] at hstored
  rw [hrevision] at hhead
  simp only [unhex, bind_eq_ok_iff, ensure_eq_ok_iff, Bool.and_eq_true] at hhead
  obtain ⟨_, hhex, -⟩ := hhead
  simp only [valid_identity, valid_key, valid_hex, Bool.and_eq_true, decide_eq_true_eq]
  exact ⟨fun hvalid => hvalid.1.1, fun hlen => ⟨⟨hlen, hstored⟩, hhex⟩⟩

/-- The record of an instance with nothing but an identity. -/
def bare (identity : ActiveIdentity) : Prepared where
  source := ""
  assets := .empty
  identity := some identity
  generation := 0
  selections := []
  invocation := ⟨false, true, none, none, none⟩
  port := 1
  override_options := {}
  controller_secret := none

theorem Runs.valid {platform : Platform} {identity : ActiveIdentity} (hruns : Runs platform identity) :
    valid_identity identity = true := by
  have hcheck := hruns.prepared (bare identity) rfl rfl
  simp only [check_prepared, bind_eq_ok_iff, ensure_eq_ok_iff] at hcheck
  obtain ⟨_, -, _, hidentity, -⟩ := hcheck
  exact hidentity

theorem check_launched_invocation (launch : Launch) {invocation : Invocation} (hinvocation : invocation.Valid) :
    check_invocation { invocation with prepared := !invocation.foreground, config_path := some launch.path } = .ok () := by
  have hpaths : [some launch.path, invocation.source_path].reduceOption.forM check_invocation_path = .ok () := by
    cases hsource : invocation.source_path with
    | none =>
      show (check_invocation_path launch.path >>= fun _ => Except.ok ()) = .ok ()
      rw [launch.path_valid]
      rfl
    | some path =>
      show (check_invocation_path launch.path >>= fun _ => check_invocation_path path >>= fun _ => Except.ok ()) = .ok ()
      rw [launch.path_valid, hinvocation.source_path path hsource]
      rfl
  simp only [check_invocation, bind_eq_ok_iff, ensure_eq_ok_iff]
  refine ⟨(), ?_, hpaths⟩
  simp [hinvocation.port]

theorem runs_of_valid (platform : Platform) {identity : ActiveIdentity} (hvalid : valid_identity identity = true) :
    Runs platform identity where
  prepared := by
    intro prepared hidentity hcheck
    simp only [check_prepared, bind_eq_ok_iff, ensure_eq_ok_iff] at hcheck ⊢
    obtain ⟨_, hlimits, _, -, _, hport, -⟩ := hcheck
    rw [hidentity]
    exact ⟨(), hlimits, (), hvalid, (), hport, rfl⟩
  descriptor := by
    intro launch prepared cfg ready hidentity hinvocation hports
    have hform : (2 == 2 && decide (launch.pid > 0) && valid_hex launch.nonce 32 &&
        line (launch.descriptor prepared cfg ready).encode == line (launch.descriptor prepared cfg ready).encode) = true := by
      simp [launch.nonce_valid, launch.pid_pos]
    simp only [check_descriptor, bind_eq_ok_iff, okOr_eq_ok_iff, ensure_eq_ok_iff]
    refine ⟨_, from_slice_descriptor platform _, (), hform, (), ?_, (), ?_, (), check_client_endpoint hports,
      (), launch.service_valid, (), check_launched_invocation launch hinvocation, rfl⟩
    · simpa only [Launch.descriptor, hidentity, Option.all_some] using hvalid
    · simp only [Launch.descriptor, hidentity, Option.isSome_some, Bool.true_or]
  request := by
    intro body nonce generation hnonce hnonce_valid hkey hrevision hgeneration hpos
    simp only [valid_identity, Bool.and_eq_true] at hvalid
    obtain ⟨generation_value, hget, hread⟩ := Option.bind_eq_some_iff.1 hgeneration
    have hcount : (api.metadata_fields.filter fun key => (body.get key).isSome).length = 4 := by
      simp [api.metadata_fields, hnonce, hkey, hrevision, hget]
    simp only [api.selection_metadata, hcount, hgeneration]
    simp [api.metadata_fields, hnonce, hkey, hrevision, Value.as_str, hpos, hnonce_valid, hvalid]

/-- The active identity of an accepted catalog can be run exactly when its key has at most 250 bytes. -/
theorem active_identity_runs_iff {platform : Platform} {fs : fsutil.Fs} {token : StateToken} {catalog : Catalog}
    {identity : ActiveIdentity} (hinspect : platform.inspect fs = .ok (token, catalog))
    (hactive : catalog.active = some identity) : Runs platform identity ↔ str.len identity.key ≤ 250 := by
  have hcatalog : catalog.Canonical platform := by
    obtain ⟨bytes, -, hdecode⟩ | ⟨rfl, -⟩ := inspect_eq_ok hinspect
    · exact (decode_state_eq_ok_iff.1 hdecode).1.form
    · cases hactive
  rw [← valid_identity_iff hcatalog hactive]
  exact ⟨Runs.valid, runs_of_valid platform⟩

def homeIdentity : ActiveIdentity :=
  ⟨"home", "0123456789abcdef0123456789abcdef"⟩

theorem unhex_homeIdentity : unhex homeIdentity.revision 16 =
    .ok [0x01, 0x23, 0x45, 0x67, 0x89, 0xab, 0xcd, 0xef, 0x01, 0x23, 0x45, 0x67, 0x89, 0xab, 0xcd, 0xef] := by
  decide +kernel

theorem home_identity_runs : ∃ token, Platform.bare.inspect (stateFs (line (Catalog.lone .bare homeIdentity).encode)) =
    .ok (token, .lone .bare homeIdentity) ∧ Runs .bare homeIdentity := by
  have hkey : stored_key homeIdentity.key = true := by
    decide +kernel
  have hinspect := inspect_of_stored (Catalog.stored_lone .bare hkey unhex_homeIdentity) (fileAt_stateFs _)
  exact ⟨_, hinspect, (active_identity_runs_iff hinspect rfl).2 (by decide +kernel)⟩

/-! ## A key that only the catalog takes -/

def letters (n : Nat) : String :=
  String.ofList (List.replicate n 'a')

theorem len_letters (n : Nat) : str.len (letters n) = n := by
  have hascii : ∀ c ∈ (letters n).toList, c.toNat < 0x80 := by
    intro c hc
    rw [letters, String.toList_ofList] at hc
    rw [List.eq_of_mem_replicate hc]
    decide
  rw [len_eq_length_of_ascii hascii, letters, String.toList_ofList, List.length_replicate]

theorem stored_letters {n : Nat} (hlow : 2 < n) (hhigh : n ≤ 255) : stored_key (letters n) = true := by
  have hall : ∀ p : Char → Bool, p 'a' = true → (letters n).toList.all p = true := by
    intro p hp
    rw [letters, String.toList_ofList, List.all_replicate, hp, ite_self]
  have hne : ∀ s : String, str.len s ≤ 2 → (letters n != s) = true := by
    intro s hs
    rw [bne_iff_ne]
    rintro rfl
    rw [len_letters] at hs
    omega
  have hcomponent : fsutil.single_component (letters n) = true := by
    rw [fsutil.single_component, hne "" (by decide), hne "." (by decide), hne ".." (by decide), hall _ (by decide)]
    rfl
  have htext : safe_text (letters n) = true := by
    rw [safe_text, hne "" (by decide), hall _ (by decide)]
    rfl
  rw [stored_key, len_letters, hcomponent, htext, decide_eq_true hhigh]
  rfl

def longIdentity : ActiveIdentity :=
  ⟨letters 251, homeIdentity.revision⟩

theorem valid_key_longIdentity : valid_key longIdentity.key = false := by
  have hlen : decide (str.len (letters 251) ≤ 250) = false := by
    rw [len_letters]
    decide
  rw [valid_key, longIdentity, hlen]
  rfl

theorem valid_longIdentity : valid_identity longIdentity = false := by
  rw [valid_identity, valid_key_longIdentity]
  rfl

theorem selection_metadata_invalid {body : Value} {key : String} (hkey : body.get "identity_key" = some (.string key))
    (hinvalid : valid_key key = false) : api.selection_metadata body = .error api.invalid_metadata := by
  have htext : ((body.get "identity_key").bind Value.as_str).any valid_key = false := by
    rw [hkey]
    exact hinvalid
  have hcount : (api.metadata_fields.filter fun key => (body.get key).isSome).length ≠ 0 := by
    intro hzero
    have hmem : "identity_key" ∈ api.metadata_fields.filter fun key => (body.get key).isSome :=
      List.mem_filter.2 ⟨by decide, by rw [hkey]; rfl⟩
    rw [List.length_eq_zero_iff.1 hzero] at hmem
    cases hmem
  unfold api.selection_metadata
  dsimp only
  split
  · rfl
  · next hform =>
    have hfour : (api.metadata_fields.filter fun key => (body.get key).isSome).length = 4 := by
      by_contra hne
      exact hform ⟨hcount, .inl hne⟩
    rw [if_pos ⟨hfour, by simp only [htext, Bool.and_false, Bool.not_false]⟩]

/-- The catalog with the long key is accepted, no record, descriptor or request with it is. -/
theorem long_identity_rejected :
    (∃ token, Platform.bare.inspect (stateFs (line (Catalog.lone .bare longIdentity).encode)) =
      .ok (token, .lone .bare longIdentity)) ∧
    (∀ prepared : Prepared, prepared.identity = some longIdentity → check_prepared prepared ≠ .ok ()) ∧
    (∀ (launch : Launch) (prepared : Prepared) (cfg : config.Config) (ready : Bool), prepared.identity = some longIdentity →
      ∀ d, check_descriptor .bare (line (launch.descriptor prepared cfg ready).encode) ≠ .ok d) ∧
    (∀ body : Value, body.get "identity_key" = some (.string longIdentity.key) →
      api.selection_metadata body = .error api.invalid_metadata) := by
  have hinvalid := valid_longIdentity
  refine ⟨?_, ?_, ?_, ?_⟩
  · have hkey : stored_key longIdentity.key = true := stored_letters (by decide) (by decide)
    exact ⟨_, inspect_of_stored (Catalog.stored_lone .bare hkey unhex_homeIdentity) (fileAt_stateFs _)⟩
  · intro prepared hidentity hcheck
    simp only [check_prepared, bind_eq_ok_iff, ensure_eq_ok_iff] at hcheck
    obtain ⟨_, -, _, hvalid, -⟩ := hcheck
    rw [hidentity, Option.all_some, hinvalid] at hvalid
    cases hvalid
  · intro launch prepared cfg ready hidentity d hcheck
    simp only [check_descriptor, from_slice_descriptor, bind_eq_ok_iff, okOr_eq_ok_iff, ensure_eq_ok_iff] at hcheck
    obtain ⟨_, hdecoded, _, -, _, hvalid, -⟩ := hcheck
    rw [← Option.some.inj hdecoded, Launch.descriptor, hidentity, Option.all_some, hinvalid] at hvalid
    cases hvalid
  · exact fun body hkey => selection_metadata_invalid hkey valid_key_longIdentity

/-! ## Descriptors on disk -/

structure Descriptor.Valid (d : Descriptor) : Prop where
  schema : d.schema_version = 2
  pid : 0 < d.pid
  nonce : valid_hex d.nonce 32 = true
  identity : ∀ identity ∈ d.identity, valid_identity identity = true
  unmanaged : d.identity = none → d.generation = 0
  endpoint : ∀ endpoint ∈ d.endpoint, ∃ port ≠ 0, endpoint = localhost_text port
  service : ∀ id ∈ d.service_id, valid_hex id 32 = true
  invocation : ∀ invocation ∈ d.invocation, check_invocation invocation = .ok ()

theorem check_endpoint_iff {endpoint : String} : check_endpoint endpoint = .ok () ↔ ∃ port ≠ 0, endpoint = localhost_text port := by
  simp only [check_endpoint, bind_eq_ok_iff, okOr_eq_ok_iff, ensure_eq_ok_iff, Bool.and_eq_true, bne_iff_ne, beq_iff_eq]
  constructor
  · rintro ⟨address, -, ⟨-, hport⟩, htext⟩
    exact ⟨address.port, hport, htext.symm⟩
  · rintro ⟨port, hport, rfl⟩
    exact ⟨_, parse_localhost port, ⟨rfl, hport⟩, rfl⟩

theorem forM_option_eq_ok_iff {α : Type} {value : Option α} {check : α → Result PUnit} {u : PUnit} :
    value.forM check = .ok u ↔ ∀ inner ∈ value, check inner = .ok () := by
  cases value with
  | none => simp [Option.forM, pure, Except.pure]
  | some inner => simp [Option.forM]

/-- The descriptor file is read exactly if it is the text of a valid descriptor, and then as that
    descriptor: no other bytes stand for it, and its endpoint is on the loopback address. -/
theorem check_descriptor_iff (platform : Platform) (bytes : List UInt8) (d : Descriptor) :
    check_descriptor platform bytes = .ok d ↔ bytes = line d.encode ∧ d.Valid := by
  simp only [check_descriptor, bind_eq_ok_iff, okOr_eq_ok_iff, ensure_eq_ok_iff, forM_option_eq_ok_iff, Bool.and_eq_true, beq_iff_eq,
    decide_eq_true_eq, Option.all_eq_true, check_endpoint_iff]
  constructor
  · rintro ⟨_, -, _, ⟨⟨⟨hschema, hpid⟩, hnonce⟩, rfl⟩, _, hidentity, _, hgeneration, _, hendpoint, _, hservice, _, hinvocation, hpure⟩
    obtain rfl := Except.ok.inj hpure
    refine ⟨rfl, hschema, hpid, hnonce, hidentity, fun hnone => ?_, hendpoint, hservice, hinvocation⟩
    simpa [hnone] using hgeneration
  · rintro ⟨rfl, hvalid⟩
    refine ⟨d, from_slice_descriptor platform d, (), ⟨⟨⟨hvalid.schema, hvalid.pid⟩, hvalid.nonce⟩, rfl⟩, (), hvalid.identity, (), ?_, (),
      hvalid.endpoint, (), hvalid.service, (), hvalid.invocation, rfl⟩
    cases hidentity : d.identity with
    | none => simp [hvalid.unmanaged hidentity]
    | some identity => rfl

/-! ## The group in the path of a selection -/

section Path

open api (percent_decode decode_group hex_digit)

/-- What `apply_selection_checked` writes for a byte of a group's name. -/
def encode_byte (b : UInt8) : List Char :=
  let c := Char.ofNat b.toNat
  if c.isAlphanum || "-._~".toList.contains c then [c] else '%' :: (hexPair b).map Char.toUpper

def encode_group (group : String) : String :=
  String.ofList ((str.bytes group).flatMap encode_byte)

def sent (b : UInt8) : List UInt8 :=
  (encode_byte b).flatMap String.utf8EncodeChar

theorem percent_decode_sent (b : UInt8) (rest : List UInt8) :
    percent_decode (sent b ++ rest) = (percent_decode rest).map (b :: ·) := by
  -- Each of the 256 bytes is sent as itself or as its two digits.
  have hsent : ∀ n < 256, let b := UInt8.ofNat n
      sent b = [b] ∧ b ≠ 37 ∨ ∃ high ∈ sent b, ∃ low ∈ sent b,
        sent b = [37, high, low] ∧ hex_digit high = some (n / 16) ∧ hex_digit low = some (n % 16) := by
    decide +kernel
  have hb := hsent b.toNat b.toNat_lt
  rw [UInt8.ofNat_toNat] at hb
  obtain ⟨heq, hne⟩ | ⟨high, -, low, -, heq, hhigh, hlow⟩ := hb
  · rw [heq, List.singleton_append, percent_decode]
    · cases percent_decode rest <;> rfl
    · exact fun _ _ _ h => absurd h hne
    · exact hne
  · rw [heq]
    simp only [List.cons_append, List.nil_append, percent_decode, hhigh, hlow, Option.bind_eq_bind, Option.bind_some,
      Nat.div_add_mod', UInt8.ofNat_toNat]
    cases percent_decode rest <;> rfl

/-- The controller reads back the group a client names, whatever its name. -/
theorem decode_encode_group (group : String) : decode_group (encode_group group) = some group := by
  have hbytes : str.bytes (encode_group group) = (str.bytes group).flatMap sent := by
    simp [encode_group, str.bytes, List.utf8Encode, List.flatMap_assoc]
    rfl
  have hdecode : percent_decode ((str.bytes group).flatMap sent) = some (str.bytes group) := by
    induction str.bytes group with
    | nil => rfl
    | cons b bytes ih => rw [List.flatMap_cons, percent_decode_sent, ih, Option.map_some]
  rw [decode_group, hbytes, hdecode, Option.bind_some, str.from_utf8_eq_some_iff]

end Path

end zc.daemon
