import Mathlib.Data.List.Forall2
import Zc.Config.Resolve
import Zc.Str.Trim

/-!
# Rules that name providers

Rules that can be expanded pass the check of the declarations, also when further providers are
declared, and can be expanded when providers that no rule names are left out.
-/

namespace zc.config

variable {crates : Crates} {names : Names} {providers providers' : Providers} {assets : Assets}

/-! ## Names -/

/-- Every name stands without white space around it. -/
def Names.Trimmed (names : Names) : Prop :=
  ∀ name index, names.lookup name = some index → str.trim name = name

theorem trim_of_validate_name {name : String} (hname : validate_name name = .ok ()) : str.trim name = name := by
  unfold validate_name at hname
  split at hname
  · cases hname
  · next hvalid =>
    simp only [Bool.or_eq_true, decide_eq_true_eq, not_or, not_not] at hvalid
    exact hvalid.1.1.2

theorem Names.Trimmed.insert_name {names next : Names} {name : String} {index : Nat} (hnames : names.Trimmed)
    (hname : validate_name name = .ok ()) (hinsert : insert_name names name index = .ok next) : next.Trimmed := by
  unfold config.insert_name at hinsert
  split at hinsert
  · cases hinsert
  · obtain rfl := Except.ok.inj hinsert
    intro other found hother
    rw [List.lookup_cons] at hother
    split at hother
    · next heq =>
      rw [beq_iff_eq] at heq
      rw [heq]
      exact trim_of_validate_name hname
    · exact hnames other found hother

theorem Names.Trimmed.name_proxies {proxies : List Proxy} {names final : Names} {next : Nat} (hnames : names.Trimmed)
    (hfinal : name_proxies names next proxies = .ok final) : final.Trimmed := by
  induction proxies generalizing names next with
  | nil => exact Except.ok.inj hfinal ▸ hnames
  | cons proxy proxies ih =>
    simp only [config.name_proxies, bind_eq_ok_iff] at hfinal
    obtain ⟨_, hname, inserted, hinsert, hrest⟩ := hfinal
    exact ih (hnames.insert_name hname hinsert) hrest

theorem Names.Trimmed.name_groups {groups : List RawGroup} {names final : Names} {next : Nat} (hnames : names.Trimmed)
    (hfinal : name_groups names next groups = .ok final) : final.Trimmed := by
  induction groups generalizing names next with
  | nil => exact Except.ok.inj hfinal ▸ hnames
  | cons group groups ih =>
    simp only [config.name_groups, bind_eq_ok_iff] at hfinal
    obtain ⟨_, hname, _, -, inserted, hinsert, hrest⟩ := hfinal
    exact ih (hnames.insert_name hname hinsert) hrest

theorem Names.Trimmed.resolve_groups {groups : List RawGroup} {resolved : List Group} {names final : Names} {proxy_count : Nat}
    (hnames : names.Trimmed) (hresolve : resolve_groups groups names proxy_count = .ok (resolved, final)) : final.Trimmed := by
  simp only [config.resolve_groups, bind_eq_ok_iff] at hresolve
  obtain ⟨named, hnamed, _, -, _, -, hpure⟩ := hresolve
  obtain ⟨-, rfl⟩ := Prod.mk.inj (Except.ok.inj hpure)
  exact hnames.name_groups hnamed

theorem validate_eq_ok_iff : validate crates providers = .ok () ↔
    providers.length ≤ MAX_PROVIDERS ∧ ∀ entry ∈ providers, validate_provider crates entry = .ok () := by
  simp only [validate, bind_eq_ok_iff, bail_if_eq_ok_iff, decide_eq_false_iff_not, Nat.not_lt, Traverse.forM_eq_ok_iff]
  constructor
  · rintro ⟨_, hvalid⟩
    exact hvalid
  · intro hvalid
    exact ⟨(), hvalid⟩

theorem trim_of_validate_provider {entry : String × Provider} (hentry : validate_provider crates entry = .ok ()) :
    str.trim entry.1 = entry.1 := by
  obtain ⟨name, provider⟩ := entry
  simp only [validate_provider, bind_eq_ok_iff] at hentry
  obtain ⟨_, hname, -⟩ := hentry
  exact trim_of_validate_name hname

/-! ## Rules -/

/-- The rule sends traffic to the provider. -/
def Refers (source name : String) : Prop :=
  (rule_fields source)[0]? = some "RULE-SET" ∧ (rule_fields source)[1]? = some name

theorem declared_fields (source : String) : ((str.split source ',').take 5).map str.trim = (rule_fields source).map str.trim := by
  rw [rule_fields, List.map_map]
  refine List.map_congr_left fun field _ => ?_
  refine (str.trim_trimMatches ?_ field).symm
  intro c hc
  rcases Bool.or_eq_true .. ▸ hc with hc | hc <;> rw [beq_iff_eq.1 hc] <;> rfl

theorem head_of_parse_fields {fields : List String} {result : Matcher × String}
    (hparse : Rule.parse_fields crates fields = .ok result) : ∃ kind rest, fields = kind :: rest ∧ str.trim kind ≠ "RULE-SET" := by
  have hkinds : ∀ kind ∈ ["MATCH", "DOMAIN", "DOMAIN-SUFFIX", "DOMAIN-KEYWORD", "IP-CIDR", "IP-CIDR6", "SRC-IP-CIDR",
      "PROCESS-NAME", "GEOIP", "DST-PORT", "SRC-PORT"], str.trim kind ≠ "RULE-SET" := by
    decide
  unfold Rule.parse_fields at hparse
  dsimp only at hparse
  split at hparse
  · next kind name =>
    refine ⟨kind, _, rfl, hkinds kind ?_⟩
    split at hparse
    · next heq => simp [heq]
    · cases hparse
  · next kind payload name =>
    refine ⟨kind, _, rfl, hkinds kind ?_⟩
    by_contra hkind
    simp only [List.mem_cons, List.not_mem_nil, or_false, not_or] at hkind
    simp [hkind] at hparse
  · next kind payload name option =>
    refine ⟨kind, _, rfl, hkinds kind ?_⟩
    by_contra hkind
    simp only [List.mem_cons, List.not_mem_nil, or_false, not_or] at hkind
    simp [hkind] at hparse
  · cases hparse

/-- What an expanded rule is made of. -/
theorem plan_source_ok {templates : List (String × List Rule × Nat)} {plan next : Plan} {source : String}
    (hplan : plan_source crates templates names plan source = .ok next) :
    (∃ name target no_resolve, rule_set_fields (rule_fields source) = .ok (name, target, no_resolve) ∧ Refers source name ∧
        (templates.lookup name).isSome = true ∧ (names.lookup target).isSome = true) ∨
      ∃ rule, Rule.parse crates source names = .ok rule := by
  unfold plan_source at hplan
  dsimp only at hplan
  split at hplan
  · next hhead =>
    simp only [plan_rule_set, bind_eq_ok_iff, okOr_eq_ok_iff] at hplan
    obtain ⟨⟨name, target, no_resolve⟩, hfields, ⟨rules, bytes⟩, htemplate, proxy, hproxy, -⟩ := hplan
    refine .inl ⟨name, target, no_resolve, hfields, ?_, by rw [htemplate]; rfl, by rw [hproxy]; rfl⟩
    rw [Refers]
    unfold rule_set_fields at hfields
    split at hfields
    · next heq =>
      obtain ⟨⟩ := hfields
      rw [heq] at hhead ⊢
      exact ⟨hhead, rfl⟩
    · next heq =>
      split at hfields
      · obtain ⟨⟩ := hfields
        rw [heq] at hhead ⊢
        exact ⟨hhead, rfl⟩
      · cases hfields
    · cases hfields
  · simp only [plan_rule, bind_eq_ok_iff] at hplan
    obtain ⟨rule, hrule, -⟩ := hplan
    exact .inr ⟨rule, hrule⟩

/-- The fields of a `RULE-SET` rule are the same with all white space trimmed. -/
theorem rule_set_fields_trim {fields : List String} {name target : String} {no_resolve : Bool}
    (hfields : rule_set_fields fields = .ok (name, target, no_resolve)) (hkind : fields[0]? = some "RULE-SET")
    (hname : str.trim name = name) (htarget : str.trim target = target) : fields.map str.trim = fields := by
  have hrule_set : str.trim "RULE-SET" = "RULE-SET" := by
    decide
  have hno_resolve : str.trim "no-resolve" = "no-resolve" := by
    decide
  unfold rule_set_fields at hfields
  split at hfields
  · obtain ⟨⟩ := hfields
    obtain rfl := Option.some.inj hkind
    simp only [List.map_cons, List.map_nil, hrule_set, hname, htarget]
  · split at hfields
    · next hoption =>
      obtain ⟨⟩ := hfields
      obtain rfl := Option.some.inj hkind
      simp only [List.map_cons, List.map_nil, hrule_set, hname, htarget, hoption, hno_resolve]
    · cases hfields
  · cases hfields

theorem declaration_of_plan {templates : List (String × List Rule × Nat)} {plan next : Plan} {source : String}
    (hplan : plan_source crates templates names plan source = .ok next) (hnames : names.Trimmed)
    (htemplates : ∀ name, (templates.lookup name).isSome = true → str.trim name = name ∧ (providers.lookup name).isSome = true) :
    validate_rule_declaration crates providers names source = .ok () := by
  unfold validate_rule_declaration
  rw [declared_fields]
  dsimp only
  rcases plan_source_ok hplan with ⟨name, target, no_resolve, hfields, ⟨hkind, -⟩, htemplate, hproxy⟩ | ⟨rule, hrule⟩
  · obtain ⟨hname, hprovider⟩ := htemplates name htemplate
    obtain ⟨proxy, hlookup⟩ := Option.isSome_iff_exists.1 hproxy
    rw [rule_set_fields_trim hfields hkind hname (hnames target proxy hlookup), List.head?_eq_getElem?, if_pos hkind]
    simp only [bind_eq_ok_iff, bail_if_eq_ok_iff]
    refine ⟨_, hfields, (), ?_, ?_⟩
    · rw [Option.isNone_eq_false_iff, hprovider]
    · rw [Option.isNone_eq_false_iff, hproxy]
  · have hparse := hrule
    simp only [Rule.parse, bind_eq_ok_iff] at hparse
    obtain ⟨result, hfields, -⟩ := hparse
    obtain ⟨kind, rest, heq, hkind⟩ := head_of_parse_fields hfields
    have hhead : ((rule_fields source).map str.trim).head? ≠ some "RULE-SET" := by
      rw [heq, List.map_cons, List.head?_cons]
      exact fun h => hkind (Option.some.inj h)
    rw [if_neg hhead]
    simp only [bind_eq_ok_iff]
    exact ⟨rule, hrule, rfl⟩

/-! ## Templates -/

theorem add_template_ok {read next : Templates} {entry : String × Provider}
    (hadd : add_template crates assets names read entry = .ok next) :
    ∃ rules bytes, next.templates = read.templates ++ [(entry.1, rules, bytes)] := by
  simp only [add_template, bind_eq_ok_iff] at hadd
  obtain ⟨_, -, _, -, _, -, _, -, _, -, ⟨rules, bytes, _⟩, -, hpure⟩ := hadd
  rw [← Except.ok.inj hpure]
  exact ⟨rules, bytes, rfl⟩

theorem map_fst_templates {read final : Templates} (hfold : providers.foldlM (add_template crates assets names) read = .ok final) :
    final.templates.map Prod.fst = read.templates.map Prod.fst ++ providers.map Prod.fst := by
  induction providers generalizing read with
  | nil =>
    obtain rfl := Except.ok.inj hfold
    rw [List.map_nil, List.append_nil]
  | cons entry providers ih =>
    rw [List.foldlM_cons, bind_eq_ok_iff] at hfold
    obtain ⟨next, hadd, hrest⟩ := hfold
    obtain ⟨rules, bytes, hnext⟩ := add_template_ok hadd
    rw [ih hrest, hnext, List.map_append, List.map_cons, List.map_cons, List.append_assoc]
    rfl

theorem isSome_lookup_iff {α : Type} {entries : List (String × α)} {name : String} :
    (entries.lookup name).isSome = true ↔ name ∈ entries.map Prod.fst := by
  induction entries with
  | nil => simp
  | cons entry entries ih =>
    rw [List.lookup_cons, List.map_cons, List.mem_cons]
    split
    · next heq => simp [beq_iff_eq.1 heq]
    · next hne => simp [ih, beq_eq_false_iff_ne.1 hne]

theorem declarations_of_expand {rules : List String} {expanded : List Rule}
    (hexpand : expand crates rules providers assets names = .ok expanded) (hnames : names.Trimmed)
    (hvalidate : validate crates providers' = .ok ()) (hsub : providers.map Prod.fst ⊆ providers'.map Prod.fst) :
    validate_rule_declarations crates rules providers' names = .ok () := by
  simp only [expand, bind_eq_ok_iff] at hexpand
  obtain ⟨_, -, _, -, read, hread, plan, hplan, -⟩ := hexpand
  have hfst := map_fst_templates hread
  rw [List.map_nil, List.nil_append] at hfst
  simp only [validate_rule_declarations, bind_eq_ok_iff]
  refine ⟨(), hvalidate, Traverse.forM_eq_ok_iff.2 fun source hsource => ?_⟩
  obtain ⟨before, after, hstep⟩ := Traverse.exists_step_of_mem hplan hsource
  refine declaration_of_plan hstep hnames fun name hname => ?_
  have hmem := hsub (hfst ▸ isSome_lookup_iff.1 hname)
  refine ⟨?_, isSome_lookup_iff.2 hmem⟩
  obtain ⟨entry, hentry, rfl⟩ := List.mem_map.1 hmem
  exact trim_of_validate_provider ((validate_eq_ok_iff.1 hvalidate).2 entry hentry)

/-- What runs with some assets is not rejected before they are there. -/
theorem validate_declarations_of_parse {source : String} {cfg : Config}
    (hparse : Config.parse_with_assets crates source assets = .ok cfg) : Config.validate_declarations crates source = .ok () := by
  simp only [Config.parse_with_assets, Config.parse_inner, Config.of_document, bind_eq_ok_iff, okOr_eq_ok_iff] at hparse
  obtain ⟨document, hdocument, _, hanytls, _, hlimits, raw, hraw, controller, hcontroller, address, haddress, ⟨proxies, groups⟩,
    hentries, _, hcount, names, hnames, ⟨resolved, names'⟩, hgroups, rules, hrules, -⟩ := hparse
  have htrimmed : Names.Trimmed names' := by
    have hstart : Names.Trimmed [] := fun _ _ h => nomatch h
    exact (hstart.name_proxies hnames).resolve_groups hgroups
  have hvalidate : validate crates raw.rule_providers = .ok () := by
    simp only [build_rules, expand, bind_eq_ok_iff] at hrules
    obtain ⟨_, hvalidate, -⟩ := hrules
    exact hvalidate
  have hdeclared : build_rules crates raw names' none = .ok [] := by
    simp only [build_rules, bind_eq_ok_iff]
    exact ⟨(), declarations_of_expand hrules htrimmed hvalidate (List.Subset.refl _), rfl⟩
  simp only [Config.validate_declarations, Config.parse_inner, Config.of_document, bind_eq_ok_iff, okOr_eq_ok_iff]
  exact ⟨_, ⟨document, hdocument, (), hanytls, (), hlimits, raw, hraw, controller, hcontroller, address, haddress, _, hentries, (),
    hcount, names, hnames, _, hgroups, [], hdeclared, rfl⟩, rfl⟩

theorem sample_declared : ∃ cfg, Config.parse_with_assets sampleCrates sampleSource [] = .ok cfg ∧
    Config.validate_declarations sampleCrates sampleSource = .ok () := by
  obtain ⟨cfg, hcfg, -⟩ := sample_accepted
  exact ⟨cfg, hcfg, validate_declarations_of_parse hcfg⟩

end zc.config
