import Zc.Config.Declarations
import Zc.Override.Project

/-!
# Configurations of linked documents

What of a configuration depends on `mixed-port` and `rule-providers`: only the check of the
standalone listeners and the expansion of the rules.
-/

namespace zc.config

variable {crates : Crates}

/-! ## Deserialization by lookups -/

theorem map_find?_contains (map : override_script.Map) (name : String) :
    (map.find? fun entry => [name].contains entry.1).map (·.2) = map.lookup name := by
  induction map with
  | nil => rfl
  | cons entry map ih =>
    obtain ⟨key, value⟩ := entry
    rw [override_script.Map.lookup_cons, List.find?_cons]
    by_cases hkey : name = key
    · simp [hkey]
    · have hne : [name].contains key = false := by
        simp [Ne.symm hkey]
      rw [if_neg hkey, hne, ih]

variable {map : override_script.Map}

theorem length_filter_le_one (hordered : map.Ordered) (name : String) :
    (map.filter fun entry => [name].contains entry.1).length ≤ 1 := by
  have hkeys : ∀ entry ∈ map.filter fun entry => [name].contains entry.1, entry.1 = name := by
    intro entry hentry
    simpa using (List.mem_filter.1 hentry).2
  have hsorted := hordered.filter fun entry => [name].contains entry.1
  match hfilter : map.filter fun entry => [name].contains entry.1 with
  | [] =>
    rw [hfilter]
    exact Nat.zero_le 1
  | [entry] =>
    rw [hfilter]
    exact Nat.le_refl 1
  | a :: b :: rest =>
    rw [hfilter] at hkeys hsorted
    have hlt := (List.pairwise_cons.1 hsorted).1 b List.mem_cons_self
    rw [hkeys a List.mem_cons_self, hkeys b (List.mem_cons_of_mem _ List.mem_cons_self)] at hlt
    exact absurd hlt (lt_irrefl name)

theorem fields_object {names : List String} (hordered : map.Ordered) (hknown : ∀ entry ∈ map, entry.1 ∈ names) :
    Value.fields (names.map fun name => [name]) (.object map) = some fun index => (names[index]?).bind fun name => map.lookup name := by
  have hall : map.all (fun entry => (names.map fun name => [name]).any (·.contains entry.1)) = true := by
    rw [List.all_eq_true]
    intro entry hentry
    rw [List.any_map, List.any_eq_true]
    exact ⟨entry.1, hknown entry hentry, by simp⟩
  have hunique : (names.map fun name => [name]).all (fun field => (map.filter fun entry => field.contains entry.1).length ≤ 1) = true := by
    rw [List.all_map, List.all_eq_true]
    intro name _
    exact decide_eq_true (length_filter_le_one hordered name)
  rw [Value.fields, if_pos ⟨hall, hunique⟩]
  refine congrArg some (funext fun index => ?_)
  rw [List.getElem?_map, Option.bind_map]
  cases names[index]? with
  | none => rfl
  | some name => exact map_find?_contains map name

def rawNames : List String :=
  ["proxies", "proxy-groups", "rules", "rule-providers", "allow-lan", "bind-address", "mixed-port", "port", "socks-port", "mode",
    "log-level", "external-controller", "secret"]

/-- `RawConfig::deserialize` of an object without unknown fields. -/
def RawConfig.of_lookup (field : String → Option Value) : Option RawConfig := do
  let proxies ← Value.defaulted [] (Value.bounded MAX_MIXED_PROXIES RawEntry.deserialize) (field "proxies")
  let proxy_groups ← Value.defaulted [] (Value.bounded MAX_GROUPS RawGroup.deserialize) (field "proxy-groups")
  let rules ← Value.defaulted [] (Value.bounded MAX_RULES Value.as_str) (field "rules")
  let rule_providers ← Value.defaulted [] (Value.mapping Provider.deserialize) (field "rule-providers")
  let allow_lan ← Value.defaulted false Value.as_bool (field "allow-lan")
  let bind_address ← Value.present Value.as_str (field "bind-address")
  let mixed_port ← Value.present decode_u16 (field "mixed-port")
  let port ← Value.present decode_u16 (field "port")
  let socks_port ← Value.present decode_u16 (field "socks-port")
  let mode ← Value.present Value.as_str (field "mode")
  let log_level ← Value.present Value.as_str (field "log-level")
  let external_controller ← Value.defaulted none (Value.optional Value.as_str) (field "external-controller")
  let secret ← Value.defaulted none (Value.optional Value.as_str) (field "secret")
  pure { proxies, proxy_groups, rules, rule_providers, allow_lan, bind_address, mixed_port, port, socks_port,
         mode, log_level, external_controller, secret }

theorem deserialize_object (hordered : map.Ordered) (hknown : ∀ entry ∈ map, entry.1 ∈ rawNames) :
    RawConfig.deserialize (.object map) = RawConfig.of_lookup fun name => map.lookup name := by
  have hfields := fields_object hordered hknown
  change (Value.fields (rawNames.map fun name => [name]) (.object map)).bind _ = _
  rw [hfields]
  rfl

theorem known_of_fields {α : Type} {names : List String} {next : (Nat → Option Value) → Option α} {result : α}
    (hfields : (Value.fields (names.map fun name => [name]) (.object map)).bind next = some result) :
    ∀ entry ∈ map, entry.1 ∈ names := by
  obtain ⟨field, hfield, -⟩ := Option.bind_eq_some_iff.1 hfields
  rw [Value.fields] at hfield
  split at hfield
  · next hall =>
    intro entry hentry
    have hany := List.all_eq_true.1 hall.1 entry hentry
    rw [List.any_map, List.any_eq_true] at hany
    obtain ⟨name, hname, hcontains⟩ := hany
    have heq : entry.1 = name := by
      simpa using hcontains
    exact heq ▸ hname
  · cases hfield

variable {raw : RawConfig}

theorem known_of_deserialize (hraw : RawConfig.deserialize (.object map) = some raw) :
    ∀ entry ∈ map, entry.1 ∈ rawNames :=
  known_of_fields hraw

/-- What each field of a configuration is read from. -/
structure RawConfig.Reads (field : String → Option Value) (raw : RawConfig) : Prop where
  proxies : Value.defaulted [] (Value.bounded MAX_MIXED_PROXIES RawEntry.deserialize) (field "proxies") = some raw.proxies
  proxy_groups : Value.defaulted [] (Value.bounded MAX_GROUPS RawGroup.deserialize) (field "proxy-groups") = some raw.proxy_groups
  rules : Value.defaulted [] (Value.bounded MAX_RULES Value.as_str) (field "rules") = some raw.rules
  rule_providers : Value.defaulted [] (Value.mapping Provider.deserialize) (field "rule-providers") = some raw.rule_providers
  allow_lan : Value.defaulted false Value.as_bool (field "allow-lan") = some raw.allow_lan
  bind_address : Value.present Value.as_str (field "bind-address") = some raw.bind_address
  mixed_port : Value.present decode_u16 (field "mixed-port") = some raw.mixed_port
  port : Value.present decode_u16 (field "port") = some raw.port
  socks_port : Value.present decode_u16 (field "socks-port") = some raw.socks_port
  mode : Value.present Value.as_str (field "mode") = some raw.mode
  log_level : Value.present Value.as_str (field "log-level") = some raw.log_level
  external_controller :
    Value.defaulted none (Value.optional Value.as_str) (field "external-controller") = some raw.external_controller
  secret : Value.defaulted none (Value.optional Value.as_str) (field "secret") = some raw.secret

theorem of_lookup_eq_some_iff {field : String → Option Value} :
    RawConfig.of_lookup field = some raw ↔ raw.Reads field := by
  constructor
  · intro hraw
    obtain ⟨proxies, hproxies, hraw⟩ := Option.bind_eq_some_iff.1 hraw
    obtain ⟨groups, hgroups, hraw⟩ := Option.bind_eq_some_iff.1 hraw
    obtain ⟨rules, hrules, hraw⟩ := Option.bind_eq_some_iff.1 hraw
    obtain ⟨providers, hproviders, hraw⟩ := Option.bind_eq_some_iff.1 hraw
    obtain ⟨lan, hlan, hraw⟩ := Option.bind_eq_some_iff.1 hraw
    obtain ⟨bind, hbind, hraw⟩ := Option.bind_eq_some_iff.1 hraw
    obtain ⟨mixed, hmixed, hraw⟩ := Option.bind_eq_some_iff.1 hraw
    obtain ⟨port, hport, hraw⟩ := Option.bind_eq_some_iff.1 hraw
    obtain ⟨socks, hsocks, hraw⟩ := Option.bind_eq_some_iff.1 hraw
    obtain ⟨mode, hmode, hraw⟩ := Option.bind_eq_some_iff.1 hraw
    obtain ⟨level, hlevel, hraw⟩ := Option.bind_eq_some_iff.1 hraw
    obtain ⟨controller, hcontroller, hraw⟩ := Option.bind_eq_some_iff.1 hraw
    obtain ⟨secret, hsecret, hraw⟩ := Option.bind_eq_some_iff.1 hraw
    obtain rfl := Option.some.inj hraw
    exact ⟨hproxies, hgroups, hrules, hproviders, hlan, hbind, hmixed, hport, hsocks, hmode, hlevel, hcontroller, hsecret⟩
  · rintro ⟨hproxies, hgroups, hrules, hproviders, hlan, hbind, hmixed, hport, hsocks, hmode, hlevel, hcontroller, hsecret⟩
    simp only [RawConfig.of_lookup, hproxies, hgroups, hrules, hproviders, hlan, hbind, hmixed, hport, hsocks, hmode, hlevel,
      hcontroller, hsecret, Option.bind_eq_bind, Option.bind_some, Option.pure_def]

theorem reads_of_deserialize (hordered : map.Ordered) (hraw : RawConfig.deserialize (.object map) = some raw) :
    raw.Reads fun name => map.lookup name := by
  rw [deserialize_object hordered (known_of_deserialize hraw)] at hraw
  exact of_lookup_eq_some_iff.1 hraw

end zc.config
