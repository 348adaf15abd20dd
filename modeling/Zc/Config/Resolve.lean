import Mathlib.Order.Interval.Finset.Nat
import Zc.Config.WellFormed
import Zc.Lib.Walk

namespace zc.config

variable {cfg : Config} {index k : Nat}

namespace Config

/-- The member a group node has selected; a proxy node stays where it is. -/
def selected_member (cfg : Config) (index : Nat) : Nat :=
  ((do
    let group ← cfg.groups[index - cfg.proxies.length]?
    let selection ← cfg.selections[index - cfg.proxies.length]?
    group.members[selection]?) : Option Nat).getD index

/-- `index` is a group node. -/
def IsGroup (cfg : Config) (index : Nat) : Prop :=
  cfg.proxies.length ≤ index ∧ index < cfg.nodes

instance (cfg : Config) : DecidablePred cfg.IsGroup :=
  fun _ => inferInstanceAs (Decidable (_ ∧ _))

/-- The selection of a group node of a well-formed configuration is one of its members. -/
theorem WellFormed.group_spec (hcfg : cfg.WellFormed) (hindex : cfg.IsGroup index) :
    ∃ group selection member, cfg.groups[index - cfg.proxies.length]? = some group ∧
      cfg.selections[index - cfg.proxies.length]? = some selection ∧ group.members[selection]? = some member ∧
      cfg.selected_member index = member ∧ cfg.Member member index := by
  obtain ⟨hle, hlt⟩ := hindex
  have hgroup : index - cfg.proxies.length < cfg.groups.length := by
    unfold nodes at hlt
    omega
  have hget := List.getElem?_eq_getElem hgroup
  obtain ⟨selection, hselection, hposition⟩ := hcfg.selected _ _ hget
  have hmember := List.getElem?_eq_getElem hposition
  refine ⟨_, selection, _, hget, hselection, hmember, ?_, hle, _, hget, List.getElem_mem hposition⟩
  simp [selected_member, hget, hselection, hmember]

theorem WellFormed.selected_lt (hcfg : cfg.WellFormed) (hindex : cfg.IsGroup index) :
    cfg.selected_member index < cfg.nodes := by
  obtain ⟨group, _, _, _, _, _, hselected, _, group', hgroup', hmem⟩ := hcfg.group_spec hindex
  rw [hselected]
  exact hcfg.members_below group' (List.mem_of_getElem? hgroup') _ hmem

/-- The loop follows the selected members, as long as it has turns left. -/
theorem WellFormed.resolve_from_iterate (hcfg : cfg.WellFormed) {turns : Nat}
    (hgroups : ∀ j < k, cfg.IsGroup (cfg.selected_member^[j] index))
    (hleaf : cfg.selected_member^[k] index < cfg.proxies.length) (hturns : k < turns) :
    cfg.resolve_from turns index = .ok (cfg.selected_member^[k] index) := by
  induction k generalizing index turns with
  | zero =>
    cases turns with
    | zero => omega
    | succ turns =>
      rw [Function.iterate_zero, id] at hleaf ⊢
      rw [resolve_from, if_pos hleaf]
      rfl
  | succ k ih =>
    cases turns with
    | zero => omega
    | succ turns =>
      have hindex := hgroups 0 (by omega)
      rw [Function.iterate_zero, id] at hindex
      obtain ⟨group, selection, member, hgroup, hselection, hmember, hselected, -⟩ := hcfg.group_spec hindex
      rw [resolve_from, if_neg (Nat.not_lt.2 hindex.1)]
      simp only [hgroup, hselection, hmember]
      rw [← hselected, Function.iterate_succ_apply]
      refine ih ?_ ?_ (by omega)
      · intro j hj
        have hnext := hgroups (j + 1) (by omega)
        rwa [Function.iterate_succ_apply] at hnext
      · rwa [Function.iterate_succ_apply] at hleaf

theorem WellFormed.reachable_iterate (hcfg : cfg.WellFormed)
    (hgroups : ∀ j < k, cfg.IsGroup (cfg.selected_member^[j] index)) :
    Relation.ReflTransGen (fun node child => cfg.Member child node) index (cfg.selected_member^[k] index) := by
  induction k with
  | zero => exact .refl
  | succ k ih =>
    obtain ⟨_, _, _, _, _, _, hselected, hmember⟩ := hcfg.group_spec (hgroups k (by omega))
    rw [Function.iterate_succ_apply', hselected]
    exact (ih fun j hj => hgroups j (by omega)).tail hmember

theorem WellFormed.iterate_lt (hcfg : cfg.WellFormed) (hindex : index < cfg.nodes)
    (hgroups : ∀ j < k, cfg.IsGroup (cfg.selected_member^[j] index)) : cfg.selected_member^[k] index < cfg.nodes := by
  cases k with
  | zero => exact hindex
  | succ k =>
    rw [Function.iterate_succ_apply']
    exact hcfg.selected_lt (hgroups k (by omega))

/-- From every node, the walk along the selections ends at a proxy before the loop runs out. -/
theorem WellFormed.resolve_proxy {cfg : Config} (hcfg : cfg.WellFormed) {index : Nat} (hindex : index < cfg.nodes) :
    ∃ leaf, cfg.resolve_proxy index = .ok leaf ∧ leaf < cfg.proxies.length ∧
      Relation.ReflTransGen (fun node child => cfg.Member child node) index leaf := by
  have hnext : ∀ node, cfg.IsGroup node → cfg.Member (cfg.selected_member node) node := by
    intro node hnode
    obtain ⟨_, _, _, _, _, _, hselected, hmember⟩ := hcfg.group_spec hnode
    exact hselected ▸ hmember
  have hmem : ∀ node, cfg.IsGroup node → node ∈ Finset.Ico cfg.proxies.length cfg.nodes :=
    fun node hnode => Finset.mem_Ico.2 hnode
  obtain ⟨k, hk, hexit, hgroups⟩ := Walk.exists_exit hnext (hcfg.acyclic.apply index) hmem
  have hcard : k ≤ cfg.groups.length := by
    simpa [nodes] using hk
  have hbelow := hcfg.iterate_lt hindex hgroups
  have hleaf : cfg.selected_member^[k] index < cfg.proxies.length := by
    by_contra hge
    exact hexit ⟨Nat.not_lt.1 hge, hbelow⟩
  exact ⟨_, hcfg.resolve_from_iterate hgroups hleaf (by omega), hleaf, hcfg.reachable_iterate hgroups⟩

end Config

/-! ## A sample -/

/-- A YAML configuration with one proxy and a group inside a group. -/
def sampleSource : String :=
  "proxies:\n- name: jp\n  type: ss\n  server: jp.example.net\n  port: 8388\n  password: pw\n" ++
  "  cipher: aes-128-gcm\nproxy-groups:\n- name: inner\n  type: select\n  proxies: [jp, DIRECT]\n" ++
  "- name: outer\n  type: select\n  proxies: [REJECT, inner]\n" ++
  "rules: ['IP-CIDR,10.0.0.0/8,DIRECT', 'DOMAIN-SUFFIX,example.org,outer', 'MATCH,jp']\n"

def sampleDocument : Value :=
  .object [
    ("proxies", .array [.object [("cipher", .string "aes-128-gcm"), ("name", .string "jp"),
      ("password", .string "pw"), ("port", .number (.PosInt 8388)), ("server", .string "jp.example.net"),
      ("type", .string "ss")]]),
    ("proxy-groups", .array [
      .object [("name", .string "inner"), ("proxies", .array [.string "jp", .string "DIRECT"]),
        ("type", .string "select")],
      .object [("name", .string "outer"), ("proxies", .array [.string "REJECT", .string "inner"]),
        ("type", .string "select")]]),
    ("rules", .array [.string "IP-CIDR,10.0.0.0/8,DIRECT", .string "DOMAIN-SUFFIX,example.org,outer",
      .string "MATCH,jp"])]

def sampleNet : IpNet :=
  ⟨.V4 ⟨10, 0, 0, 0⟩, 8⟩

/-- Library calls with the answers that the sample asks for. -/
def sampleCrates : Crates where
  json_document _ := none
  yaml_documents source := if source = sampleSource then pure [sampleDocument] else bail "invalid"
  parse_net text := if text = "10.0.0.0/8" then some sampleNet else none
  contains net ip := net == sampleNet && match ip with
    | .V4 ip => ip.a == 10
    | .V6 _ => false
  parse_url _ := none
  server_name _ := false

def Config.parts (cfg : Config) : List Proxy × List Rule × List Group × List Nat :=
  (cfg.proxies, cfg.rules, cfg.groups, cfg.selections)

def sampleParts : List Proxy × List Rule × List Group × List Nat :=
  (builtin_proxies ++ [⟨"jp", .Shadowsocks "jp.example.net" 8388 "pw" "aes-128-gcm", false, none⟩],
    [⟨.Ip sampleNet false, 0, "IP-CIDR", "10.0.0.0/8"⟩,
      ⟨.DomainSuffix "example.org", 4, "DOMAIN-SUFFIX", "example.org"⟩, ⟨.Match, 2, "MATCH", ""⟩],
    [⟨"inner", [2, 0]⟩, ⟨"outer", [1, 3]⟩], [0, 0])

private theorem sample_document : parse_document sampleCrates sampleSource = .ok sampleDocument := by
  have hlen : ¬ str.len sampleSource > MAX_SOURCE_BYTES := by
    decide +kernel
  have hjson : sampleCrates.json_document sampleSource = none := rfl
  have hyaml : sampleCrates.yaml_documents sampleSource = .ok [sampleDocument] := by
    simp only [sampleCrates, if_true]
    rfl
  have hvalue : yaml_value sampleCrates sampleSource = .ok sampleDocument := by
    unfold yaml_value
    rw [if_neg hlen]
    simp only [hjson, hyaml, Option.filter_none, ite_self]
    rfl
  simp only [parse_document, hvalue, bind_eq_ok_iff]
  exact ⟨sampleDocument, rfl, (), rfl, rfl⟩

/-- The sample is accepted with the nodes, rules and selections one reads off it. -/
theorem sample_accepted :
    ∃ cfg, Config.parse_with_assets sampleCrates sampleSource [] = .ok cfg ∧ cfg.parts = sampleParts := by
  have hparts : (Config.of_document sampleCrates sampleDocument (some [])).toOption.map Config.parts =
      some sampleParts := by
    decide +kernel
  cases hcfg : Config.of_document sampleCrates sampleDocument (some []) with
  | error error =>
    rw [hcfg] at hparts
    cases hparts
  | ok cfg =>
    refine ⟨cfg, ?_, ?_⟩
    · simp only [Config.parse_with_assets, Config.parse_inner, bind_eq_ok_iff]
      exact ⟨sampleDocument, sample_document, hcfg⟩
    · rw [hcfg] at hparts
      exact Option.some.inj hparts

/-- Whatever calls changed the selections of an accepted configuration, resolving a rule's target or a
    group's member returns a proxy that the node leads to, within one turn more than there are groups
    and without leaving an index range. -/
theorem resolve_proxy_reaches_proxy {crates : Crates} {source : String} {assets : Assets} {cfg : Config}
    (hparse : Config.parse_with_assets crates source assets = .ok cfg) (calls : List SelectionCall) {index : Nat}
    (hindex : (∃ rule ∈ cfg.rules, rule.proxy = index) ∨ ∃ group ∈ cfg.groups, index ∈ group.members) :
    ∃ leaf, (cfg.after calls).resolve_proxy index = .ok leaf ∧ leaf < cfg.proxies.length ∧
      Relation.ReflTransGen (fun node child => cfg.Member child node) index leaf := by
  have hcfg := Config.wellFormed_of_parse hparse
  obtain ⟨selections, hafter⟩ := cfg.after_eq calls
  have hlt : index < cfg.nodes := by
    rcases hindex with ⟨rule, hrule, rfl⟩ | ⟨group, hgroup, hmember⟩
    · exact hcfg.rules_below rule hrule
    · exact hcfg.members_below group hgroup index hmember
  have hresolve := @Config.WellFormed.resolve_proxy _ (hcfg.after calls) index
  rw [hafter] at hresolve ⊢
  exact hresolve hlt

/-- In the sample, the outer group leads to the proxy once the inner group is selected in it. -/
theorem resolve_proxy_sample : ∃ cfg, Config.parse_with_assets sampleCrates sampleSource [] = .ok cfg ∧
    ∃ leaf, (cfg.after [.select "outer" "inner"]).resolve_proxy 4 = .ok leaf ∧ leaf < cfg.proxies.length ∧
      Relation.ReflTransGen (fun node child => cfg.Member child node) 4 leaf := by
  obtain ⟨cfg, hcfg, hparts⟩ := sample_accepted
  have hrules : cfg.rules = sampleParts.2.1 := congrArg (·.2.1) hparts
  have hrule : ⟨.DomainSuffix "example.org", 4, "DOMAIN-SUFFIX", "example.org"⟩ ∈ cfg.rules := by
    rw [hrules]
    decide
  exact ⟨cfg, hcfg, resolve_proxy_reaches_proxy hcfg _ (.inl ⟨_, hrule, rfl⟩)⟩

end zc.config
