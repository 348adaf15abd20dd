import Zc.Config.Declarations

/-!
# Expansion as a flat map

`expand` reads every provider first, plans the rules against the templates and only then copies
them. What comes out is what reading the rules one after the other gives: each rule stands for
itself, each `RULE-SET` rule for the entries of its provider.
-/

namespace zc.config

variable {crates : Crates} {providers : Providers} {assets : Assets} {names : Names}

/-! ## The rules one line stands for -/

/-- The matcher with the given option, if it has one. -/
def Matcher.resolving (no_resolve : Bool) : Matcher → Matcher
  | .Ip network _ => .Ip network no_resolve
  | .GeoIp country _ => .GeoIp country no_resolve
  | matcher => matcher

/-- What an entry of a provider says; it has no target. -/
structure Entry where
  kind : String
  payload : String
  no_resolve : Bool

namespace Entry

def of_fields : List String → Option Entry
  | [] => none
  | kind :: fields =>
    if kind = "MATCH" then some ⟨kind, "", fields.contains "no-resolve"⟩
    else match fields with
      | [] => none
      | payload :: options => some ⟨kind, payload, options.contains "no-resolve"⟩

def of_trimmed (behavior text : String) : Option Entry :=
  if behavior = "domain" then
    some ⟨"DOMAIN-SUFFIX", str.trim (strip_first text ["DOMAIN-SUFFIX,", "DOMAIN,", "+.", "."]), false⟩
  else if behavior = "ipcidr" then
    let cidr := str.trim (strip_first text ["IP-CIDR,", "IP-CIDR6,"])
    some ⟨if cidr.toList.contains ':' then "IP-CIDR6" else "IP-CIDR", cidr, false⟩
  else of_fields ((str.split text ',').map (str.trimMatches fun c => c == ' ' || c == '\t'))

def of_text (behavior text : String) : Option Entry :=
  of_trimmed behavior (str.trimMatches (fun c => c == ' ' || c == '\t' || c == '\r') text)

/-- The fields of the entry's rule with some target. -/
def fields (entry : Entry) : List String :=
  if entry.kind = "MATCH" then [entry.kind, "DIRECT"] else [entry.kind, entry.payload, "DIRECT"]

/-- The rule of an entry for the target and the option of a `RULE-SET` rule. -/
def rule (crates : Crates) (proxy : Nat) (no_resolve : Bool) (entry : Entry) : Option Rule := do
  let (matcher, _) ← (Rule.parse_fields crates entry.fields).toOption
  pure ⟨matcher.resolving (entry.no_resolve || no_resolve), proxy, entry.kind, entry.payload⟩

end Entry

def is_rule_set (source : String) : Bool :=
  (rule_fields source).head? == some "RULE-SET"

def is_final (source : String) : Bool :=
  (rule_fields source).head? == some "MATCH"

/-- The target a rule names. -/
def target_of (source : String) : String :=
  ((rule_fields source).drop (if is_final source then 1 else 2)).headD ""

/-- The rules of one provider under a `RULE-SET` rule. -/
def rule_set_rules (crates : Crates) (providers : Providers) (assets : Assets) (names : Names)
    (name target : String) (no_resolve : Bool) : Option (List Rule) := do
  let provider ← providers.lookup name
  let bytes ← assets.lookup provider.path
  let text ← str.from_utf8 bytes
  let entries ← (entries crates text provider.behavior).toOption
  let proxy ← names.lookup target
  entries.mapM fun entry => (Entry.of_text provider.behavior entry).bind (Entry.rule crates proxy no_resolve)

def line_rules (crates : Crates) (providers : Providers) (assets : Assets) (names : Names) (source : String) :
    Option (List Rule) :=
  if is_rule_set source then
    (rule_set_fields (rule_fields source)).toOption.bind fun (name, target, no_resolve) =>
      rule_set_rules crates providers assets names name target no_resolve
  else (Rule.parse crates source names).toOption.map fun rule => [rule]

/-- The rule added when providers are declared and no rule of the configuration is final. -/
def closing_rules (providers : Providers) (names : Names) (sources : List String) : Option (List Rule) :=
  if !providers.isEmpty && !sources.any is_final then
    (names.lookup "REJECT").map fun reject => [⟨.Match, reject, "MATCH", ""⟩]
  else some []

/-! ## Entries -/

theorem toOption_eq_some_iff {α : Type} {result : Result α} {value : α} : result.toOption = some value ↔ result = .ok value := by
  cases result <;> simp [Except.toOption]

theorem blank_isWhitespace (c : Char) (hc : (c == ' ' || c == '\t') = true) : str.isWhitespace c = true := by
  rcases Bool.or_eq_true .. ▸ hc with hc | hc <;> rw [beq_iff_eq.1 hc] <;> rfl

theorem split_append_comma (front back : String) :
    str.split (front ++ "," ++ back) ',' = str.split front ',' ++ str.split back ',' := by
  rw [str.split, String.toList_append, String.toList_append, List.append_assoc]
  change ((front.toList ++ ',' :: back.toList).splitOn ',').map String.ofList = _
  rw [List.splitOn_append_cons_self, List.map_append]
  rfl

theorem split_of_not_mem {s : String} (hs : ',' ∉ s.toList) : str.split s ',' = [s] := by
  have hsplit := @str.split_intercalate [s] (by simpa using hs) (List.cons_ne_nil _ _)
  rwa [String.intercalate_singleton] at hsplit

theorem direct_eq (front : String) : front ++ "," ++ "DIRECT" = front ++ ",DIRECT" := by
  rw [String.append_assoc]
  rfl

variable {kind payload : String}

/-- A comma in the payload only makes the rule unreadable. -/
theorem fields_of_entry {result : Matcher × String} (hkind : ',' ∉ kind.toList)
    (hparse : Rule.parse_fields crates (rule_fields (kind ++ "," ++ payload ++ "," ++ "DIRECT")) = .ok result) :
    rule_fields (kind ++ "," ++ payload ++ "," ++ "DIRECT") =
      [str.trimMatches (fun c => c == ' ' || c == '\t') kind, str.trimMatches (fun c => c == ' ' || c == '\t') payload, "DIRECT"] := by
  have hdirect : str.trimMatches (fun c => c == ' ' || c == '\t') "DIRECT" = "DIRECT" := by
    decide
  rw [rule_fields, split_append_comma, split_append_comma, split_of_not_mem hkind,
    split_of_not_mem (s := "DIRECT") (by decide)] at hparse ⊢
  rcases hpayload : str.split payload ',' with _ | ⟨field, _ | ⟨second, _ | ⟨third, rest⟩⟩⟩
  · exact absurd (List.map_eq_nil_iff.1 hpayload) (List.splitOn_ne_nil _ _)
  · obtain ⟨chars, hchars, rfl⟩ := List.map_eq_singleton_iff.1 hpayload
    have hjoin : [','].intercalate (payload.toList.splitOn ',') = payload.toList := List.intercalate_splitOn ','
    rw [hchars, List.intercalate_singleton] at hjoin
    rw [hjoin, String.ofList_toList]
    simp [hdirect]
  · rw [hpayload] at hparse
    simp [hdirect, Rule.parse_fields] at hparse
  · rw [hpayload] at hparse
    cases rest <;> simp [Rule.parse_fields] at hparse

variable {name : String}

/-- Three fields are a rule with a payload, and a matcher without the option `no-resolve`. -/
theorem parse_three {name' : String} {matcher : Matcher}
    (hparse : Rule.parse_fields crates [kind, payload, name] = .ok (matcher, name')) :
    name' = name ∧ kind ≠ "MATCH" ∧ matcher ≠ .Match ∧ matcher.resolving false = matcher := by
  have hkind : kind ≠ "MATCH" := by
    rintro rfl
    simp [Rule.parse_fields] at hparse
  simp only [Rule.parse_fields] at hparse
  split at hparse
  · simp only [Rule.parse_domain, bind_eq_ok_iff] at hparse
    obtain ⟨_, ⟨_, -, _, -, hmatcher⟩, ⟨⟩⟩ := hparse
    split at hmatcher
    · obtain rfl := Except.ok.inj hmatcher
      exact ⟨rfl, hkind, by rintro ⟨⟩, rfl⟩
    · split at hmatcher <;> obtain rfl := Except.ok.inj hmatcher <;> exact ⟨rfl, hkind, by rintro ⟨⟩, rfl⟩
  split at hparse
  · simp only [Rule.parse_ip, bind_eq_ok_iff] at hparse
    obtain ⟨_, ⟨_, -, _, -, ⟨⟩⟩, ⟨⟩⟩ := hparse
    exact ⟨rfl, hkind, by rintro ⟨⟩, rfl⟩
  split at hparse
  · simp only [Rule.parse_source_ip, bind_eq_ok_iff] at hparse
    obtain ⟨_, ⟨_, -, _, -, ⟨⟩⟩, ⟨⟩⟩ := hparse
    exact ⟨rfl, hkind, by rintro ⟨⟩, rfl⟩
  split at hparse
  · obtain ⟨⟩ := hparse
    exact ⟨rfl, hkind, by rintro ⟨⟩, rfl⟩
  split at hparse
  · obtain ⟨⟩ := hparse
    exact ⟨rfl, hkind, by rintro ⟨⟩, rfl⟩
  split at hparse
  · simp only [Rule.parse_ports, bind_eq_ok_iff] at hparse
    obtain ⟨_, ⟨_, -, _, -, _, -, hmatcher⟩, ⟨⟩⟩ := hparse
    split at hmatcher <;> obtain rfl := Except.ok.inj hmatcher <;> exact ⟨rfl, hkind, by rintro ⟨⟩, rfl⟩
  · cases hparse

theorem parse_four {option name' : String} {matcher : Matcher}
    (hparse : Rule.parse_fields crates [kind, payload, name, option] = .ok (matcher, name')) :
    name' = name ∧ kind ≠ "MATCH" ∧ matcher ≠ .Match := by
  have hkind : kind ≠ "MATCH" := by
    rintro rfl
    simp [Rule.parse_fields] at hparse
  simp only [Rule.parse_fields] at hparse
  split at hparse
  · simp only [Rule.parse_ip, bind_eq_ok_iff] at hparse
    obtain ⟨_, ⟨_, -, _, -, ⟨⟩⟩, ⟨⟩⟩ := hparse
    exact ⟨rfl, hkind, by rintro ⟨⟩⟩
  split at hparse
  · obtain ⟨⟩ := hparse
    exact ⟨rfl, hkind, by rintro ⟨⟩⟩
  · cases hparse

theorem inherit_eq_resolving (rule : Rule) :
    inherit_no_resolve rule = { rule with matcher := rule.matcher.resolving true } := by
  unfold inherit_no_resolve
  cases hmatcher : rule.matcher <;> simp only [Matcher.resolving]
  all_goals rw [← hmatcher]

theorem Matcher.resolving_resolving (first second : Bool) (matcher : Matcher) :
    (matcher.resolving first).resolving second = matcher.resolving second := by
  cases matcher <;> rfl

variable {rule : Rule}

/-- The option of the entry and the option of the `RULE-SET` rule. -/
theorem inherit_both (hrule : rule.matcher.resolving false = rule.matcher) (proxy : Nat) (own no_resolve : Bool) :
    (if no_resolve then inherit_no_resolve { (if own then inherit_no_resolve rule else rule) with proxy }
      else { (if own then inherit_no_resolve rule else rule) with proxy }) =
      { rule with matcher := rule.matcher.resolving (own || no_resolve), proxy } := by
  cases own <;> cases no_resolve <;>
    simp only [inherit_eq_resolving, Matcher.resolving_resolving, if_true, if_false, Bool.false_eq_true, Bool.or_true, Bool.or_false, hrule]

/-- The rule of a re-assembled entry. -/
theorem rule_of_parse (hkind : ',' ∉ kind.toList) (hfinal : kind ≠ "MATCH")
    (htrim : str.trimMatches (fun c => c == ' ' || c == '\t') kind = kind)
    (hpayload : str.trimMatches (fun c => c == ' ' || c == '\t') payload = payload)
    (hparse : Rule.parse crates (kind ++ "," ++ payload ++ "," ++ "DIRECT") names = .ok rule) (own : Bool) (proxy : Nat)
    (no_resolve : Bool) : rule.matcher.resolving false = rule.matcher ∧
      Entry.rule crates proxy no_resolve ⟨kind, payload, own⟩ =
        some { rule with matcher := rule.matcher.resolving (own || no_resolve), proxy } := by
  simp only [Rule.parse, bind_eq_ok_iff] at hparse
  obtain ⟨⟨matcher, name⟩, hfields, index, -, hrule⟩ := hparse
  have heq := fields_of_entry hkind hfields
  rw [heq, htrim, hpayload] at hfields hrule
  rw [← Except.ok.inj hrule]
  refine ⟨(parse_three hfields).2.2.2, ?_⟩
  simp only [Entry.rule, Entry.fields, if_neg hfinal, toOption_eq_some_iff.2 hfields]
  simp [hfinal]

theorem rule_of_final (hparse : Rule.parse crates "MATCH,DIRECT" names = .ok rule) (own : Bool) (proxy : Nat)
    (no_resolve : Bool) : rule.matcher.resolving false = rule.matcher ∧
      Entry.rule crates proxy no_resolve ⟨"MATCH", "", own⟩ =
        some { rule with matcher := rule.matcher.resolving (own || no_resolve), proxy } := by
  simp only [Rule.parse, bind_eq_ok_iff] at hparse
  obtain ⟨⟨matcher, name⟩, hfields, index, -, hrule⟩ := hparse
  have heq : rule_fields "MATCH,DIRECT" = ["MATCH", "DIRECT"] := by
    decide +kernel
  rw [heq] at hfields hrule
  obtain ⟨⟩ := hfields
  rw [← Except.ok.inj hrule]
  exact ⟨rfl, rfl⟩

variable {entry source : String}

theorem entry_of_classical {own : Bool} (hsource : classical_source entry = .ok (source, own))
    (hparse : Rule.parse crates source names = .ok rule) (proxy : Nat) (no_resolve : Bool) :
    rule.matcher.resolving false = rule.matcher ∧
      (Entry.of_fields ((str.split entry ',').map (str.trimMatches fun c => c == ' ' || c == '\t'))).bind
        (Entry.rule crates proxy no_resolve) =
          some { rule with matcher := rule.matcher.resolving (own || no_resolve), proxy } := by
  have hoptions : ∀ {options own}, classical_options options = .ok own → options.contains "no-resolve" = own := by
    intro options own hok
    unfold classical_options at hok
    split at hok
    · exact Except.ok.inj hok
    · cases hok
  have hfield : ∀ field ∈ (str.split entry ',').map (str.trimMatches fun c => c == ' ' || c == '\t'),
      ',' ∉ field.toList ∧ str.trimMatches (fun c => c == ' ' || c == '\t') field = field := by
    intro field hfield
    obtain ⟨text, htext, rfl⟩ := List.mem_map.1 hfield
    exact ⟨fun hcomma => str.not_mem_of_mem_split htext (str.mem_of_mem_trimMatches hcomma), str.trimMatches_idem _ _⟩
  unfold classical_source at hsource
  generalize (str.split entry ',').map (str.trimMatches fun c => c == ' ' || c == '\t') = fields at *
  cases fields with
  | nil => cases hsource
  | cons kind fields =>
    dsimp only at hsource
    split at hsource
    · cases hsource
    split at hsource
    · next hfinal =>
      simp only [bind_eq_ok_iff] at hsource
      obtain ⟨_, hown, hpure⟩ := hsource
      obtain ⟨⟩ := hpure
      rw [Entry.of_fields.eq_def]
      dsimp only
      rw [if_pos hfinal, Option.bind_some, hoptions hown, hfinal]
      exact rule_of_final hparse _ _ _
    · next hfinal =>
      cases fields with
      | nil => cases hsource
      | cons payload options =>
        simp only [bind_eq_ok_iff] at hsource
        obtain ⟨_, hown, hpure⟩ := hsource
        obtain ⟨⟩ := hpure
        rw [Entry.of_fields, if_neg hfinal, Option.bind_some, hoptions hown]
        obtain ⟨hkind, htrim⟩ := hfield kind List.mem_cons_self
        have hpayload := (hfield payload (List.mem_cons_of_mem _ List.mem_cons_self)).2
        rw [← direct_eq] at hparse
        exact rule_of_parse hkind hfinal htrim hpayload hparse _ _ _

variable {behavior : String}

theorem entry_of_source {own : Bool} (hsource : provider_source entry behavior = .ok (source, own))
    (hparse : Rule.parse crates source names = .ok rule) (proxy : Nat) (no_resolve : Bool) :
    rule.matcher.resolving false = rule.matcher ∧
      (Entry.of_trimmed behavior entry).bind (Entry.rule crates proxy no_resolve) =
        some { rule with matcher := rule.matcher.resolving (own || no_resolve), proxy } := by
  have htrim : ∀ s, str.trimMatches (fun c => c == ' ' || c == '\t') (str.trim s) = str.trim s :=
    fun s => str.trimMatches_of_trimmed blank_isWhitespace s
  unfold provider_source at hsource
  unfold Entry.of_trimmed
  by_cases hdomain : behavior = "domain"
  · rw [if_pos hdomain] at hsource ⊢
    obtain ⟨rfl, rfl⟩ := Prod.mk.inj (Except.ok.inj hsource)
    have hkind : "DOMAIN-SUFFIX," = "DOMAIN-SUFFIX" ++ "," := by
      decide
    have hpayload := htrim (strip_first entry ["DOMAIN-SUFFIX,", "DOMAIN,", "+.", "."])
    simp only [domain_source] at hparse
    generalize str.trim (strip_first entry ["DOMAIN-SUFFIX,", "DOMAIN,", "+.", "."]) = payload at hparse hpayload ⊢
    rw [← direct_eq, hkind] at hparse
    exact rule_of_parse (by decide) (by decide) (by decide) hpayload hparse _ _ _
  rw [if_neg hdomain] at hsource ⊢
  by_cases hip : behavior = "ipcidr"
  · rw [if_pos hip] at hsource ⊢
    obtain ⟨rfl, rfl⟩ := Prod.mk.inj (Except.ok.inj hsource)
    have hpayload := htrim (strip_first entry ["IP-CIDR,", "IP-CIDR6,"])
    unfold ipcidr_source at hparse
    dsimp only at hparse ⊢
    generalize str.trim (strip_first entry ["IP-CIDR,", "IP-CIDR6,"]) = payload at hparse hpayload ⊢
    rw [← direct_eq] at hparse
    rw [Option.bind_some]
    refine rule_of_parse ?_ ?_ ?_ hpayload hparse _ _ _
    all_goals split <;> decide
  rw [if_neg hip] at hsource ⊢
  split at hsource
  · exact entry_of_classical hsource hparse proxy no_resolve
  · cases hsource

theorem provider_rule_ok (hrule : provider_rule crates entry behavior names = .ok rule) (proxy : Nat)
    (no_resolve : Bool) :
    (Entry.of_text behavior entry).bind (Entry.rule crates proxy no_resolve) =
      some (if no_resolve then inherit_no_resolve { rule with proxy } else { rule with proxy }) := by
  simp only [provider_rule, bind_eq_ok_iff] at hrule
  obtain ⟨⟨source, own⟩, hsource, parsed, hparse, hpure⟩ := hrule
  obtain ⟨hparsed, hentry⟩ := entry_of_source hsource hparse proxy no_resolve
  rw [← Except.ok.inj hpure, inherit_both hparsed]
  exact hentry

/-! ## Templates -/

/-- The template of a provider, read off its asset. -/
def TemplateOf (crates : Crates) (assets : Assets) (names : Names) (provider : Provider) (rules : List Rule) : Prop :=
  ∃ bytes text texts, assets.lookup provider.path = some bytes ∧ str.from_utf8 bytes = some text ∧
    entries crates text provider.behavior = .ok texts ∧
      List.Forall₂ (fun text rule => provider_rule crates text provider.behavior names = .ok rule) texts rules

variable {rules : List Rule}

theorem provider_rules_ok {start bytes total : Nat} {texts : List String}
    (hrules : provider_rules crates behavior names start texts = .ok (rules, bytes, total)) :
    List.Forall₂ (fun text rule => provider_rule crates text behavior names = .ok rule) texts rules := by
  induction texts generalizing start rules bytes total with
  | nil =>
    obtain ⟨⟩ := hrules
    exact .nil
  | cons text texts ih =>
    simp only [provider_rules, bind_eq_ok_iff] at hrules
    obtain ⟨_, -, rule, hrule, ⟨rest, _, _⟩, hrest, hpure⟩ := hrules
    obtain ⟨⟩ := hpure
    exact .cons hrule (ih hrest)

theorem templates_of_providers {read : Templates}
    (hread : providers.foldlM (add_template crates assets names) ⟨0, 0, 0, []⟩ = .ok read) :
    List.Forall₂ (fun entry template => template.1 = entry.1 ∧ TemplateOf crates assets names entry.2 template.2.1)
      providers read.templates := by
  have hstep : ∀ (before : Templates) (entry : String × Provider) (after : Templates),
      add_template crates assets names before entry = .ok after → ∃ template, after.templates = before.templates ++ [template] ∧
        template.1 = entry.1 ∧ TemplateOf crates assets names entry.2 template.2.1 := by
    intro before entry after hadd
    simp only [add_template, bind_eq_ok_iff, okOr_eq_ok_iff] at hadd
    obtain ⟨bytes, hbytes, _, -, text, htext, texts, htexts, _, -, ⟨rules, entry_bytes, _⟩, hrules, hpure⟩ := hadd
    rw [← Except.ok.inj hpure]
    exact ⟨_, rfl, rfl, bytes, text, texts, hbytes, htext, htexts, provider_rules_ok hrules⟩
  obtain ⟨templates, htemplates, hall⟩ := Traverse.foldlM_appends hstep hread
  rw [htemplates]
  exact hall

theorem lookup_of_forall₂ {α β : Type} {r : α → β → Prop} {left : List (String × α)} {right : List (String × β)}
    (hall : List.Forall₂ (fun a b => b.1 = a.1 ∧ r a.2 b.2) left right) {name : String} {value : β}
    (hlookup : right.lookup name = some value) : ∃ found, left.lookup name = some found ∧ r found value := by
  induction hall with
  | nil => cases hlookup
  | @cons a b left right hhead _ ih =>
    rw [List.lookup_cons] at hlookup ⊢
    rw [← hhead.1]
    split at hlookup
    · obtain rfl := Option.some.inj hlookup
      exact ⟨a.2, rfl, hhead.2⟩
    · exact ih hlookup

/-! ## The plan -/

theorem rule_set_fields_ok {fields : List String} {target : String} {no_resolve : Bool}
    (hfields : rule_set_fields fields = .ok (name, target, no_resolve)) : (fields.drop 2).headD "" = target := by
  unfold rule_set_fields at hfields
  split at hfields
  · obtain ⟨⟩ := hfields
    rfl
  · split at hfields
    · obtain ⟨⟩ := hfields
      rfl
    · cases hfields
  · cases hfields

/-- What a step plans for a line: the line's rules, all with the line's target. -/
structure PlannedFor (crates : Crates) (providers : Providers) (assets : Assets) (names : Names) (source : String)
    (item : Planned) : Prop where
  rules : line_rules crates providers assets names source = some item.rules
  target : ∀ rule ∈ item.rules, names.lookup (target_of source) = some rule.proxy
  is_match : item.is_match = is_final source
  final : is_rule_set source = false → item.rules.countP (·.matcher == .Match) = if is_final source then 1 else 0

theorem parse_target (hparse : Rule.parse crates source names = .ok rule) :
    names.lookup (target_of source) = some rule.proxy ∧ (rule.matcher == .Match) = is_final source := by
  simp only [Rule.parse, bind_eq_ok_iff, okOr_eq_ok_iff] at hparse
  obtain ⟨⟨matcher, name⟩, hfields, index, hindex, hrule⟩ := hparse
  rw [← Except.ok.inj hrule, target_of, is_final]
  rcases hlist : rule_fields source with _ | ⟨kind, _ | ⟨payload, _ | ⟨target, _ | ⟨option, _ | ⟨extra, rest⟩⟩⟩⟩⟩
  · rw [hlist] at hfields
    cases hfields
  · rw [hlist] at hfields
    cases hfields
  · rw [hlist, Rule.parse_fields] at hfields
    split at hfields
    · next hkind =>
      obtain ⟨⟩ := hfields
      subst hkind
      exact ⟨hindex, rfl⟩
    · cases hfields
  · rw [hlist] at hfields
    obtain ⟨rfl, hkind, hmatcher, -⟩ := parse_three hfields
    have hhead : ([kind, payload, name].head? == some "MATCH") = false := by
      simpa using hkind
    rw [hhead]
    exact ⟨hindex, beq_eq_false_iff_ne.2 hmatcher⟩
  · rw [hlist] at hfields
    obtain ⟨rfl, hkind, hmatcher⟩ := parse_four hfields
    have hhead : ([kind, payload, name, option].head? == some "MATCH") = false := by
      simpa using hkind
    rw [hhead]
    exact ⟨hindex, beq_eq_false_iff_ne.2 hmatcher⟩
  · rw [hlist] at hfields
    cases hfields

/-- The entries of a template, with the target and the option of a `RULE-SET` rule. -/
theorem rule_set_rules_of_template {provider : Provider} {target : String} {proxy : Nat}
    (hprovider : providers.lookup name = some provider) (htemplate : TemplateOf crates assets names provider rules)
    (hproxy : names.lookup target = some proxy) (no_resolve : Bool) :
    rule_set_rules crates providers assets names name target no_resolve = some (Planned.provided rules proxy no_resolve).rules := by
  obtain ⟨bytes, text, texts, hbytes, htext, htexts, hrules⟩ := htemplate
  have hentries : texts.mapM (fun entry => (Entry.of_text provider.behavior entry).bind (Entry.rule crates proxy no_resolve)) =
      some (Planned.provided rules proxy no_resolve).rules := by
    rw [Traverse.mapM_eq_some_iff, Planned.rules, List.forall₂_map_right_iff]
    exact hrules.imp fun entry rule hrule => provider_rule_ok hrule proxy no_resolve
  simp only [rule_set_rules, hprovider, hbytes, htext, toOption_eq_some_iff.2 htexts, hproxy, Option.bind_eq_bind, Option.bind_some]
  exact hentries

variable {plan : Plan}

theorem plan_source_for {templates : List (String × List Rule × Nat)}
    (htemplates : List.Forall₂ (fun entry template => template.1 = entry.1 ∧ TemplateOf crates assets names entry.2 template.2.1) providers templates)
    {next : Plan} (hplan : plan_source crates templates names plan source = .ok next) :
    ∃ item, next.items = plan.items ++ [item] ∧ PlannedFor crates providers assets names source item := by
  unfold plan_source at hplan
  dsimp only at hplan
  split at hplan
  · next hhead =>
    simp only [plan_rule_set, bind_eq_ok_iff, okOr_eq_ok_iff] at hplan
    obtain ⟨⟨name, target, no_resolve⟩, hfields, ⟨rules, bytes⟩, htemplate, proxy, hproxy, _, -, _, -, _, -, hpure⟩ := hplan
    rw [← Except.ok.inj hpure]
    have hset : is_rule_set source = true := beq_iff_eq.2 hhead
    have hfinal : is_final source = false := by
      rw [is_final, hhead]
      decide
    refine ⟨_, rfl, ?_, ?_, ?_, ?_⟩
    · obtain ⟨provider, hprovider, hrules⟩ :=
        @lookup_of_forall₂ _ _ (fun provider template => TemplateOf crates assets names provider template.1) _ _ htemplates _ _ htemplate
      rw [line_rules, hset, if_pos rfl, toOption_eq_some_iff.2 hfields, Option.bind_some]
      exact rule_set_rules_of_template hprovider hrules hproxy no_resolve
    · intro rule hrule
      obtain ⟨template, -, rfl⟩ := List.mem_map.1 hrule
      rw [target_of, hfinal, if_neg Bool.false_ne_true, rule_set_fields_ok hfields, hproxy]
      dsimp only
      split
      · rw [proxy_inherit_no_resolve]
      · rfl
    · rw [hfinal]
      rfl
    · intro hnot
      rw [hset] at hnot
      cases hnot
  · next hhead =>
    simp only [plan_rule, bind_eq_ok_iff] at hplan
    obtain ⟨rule, hrule, _, -, _, -, hpure⟩ := hplan
    rw [← Except.ok.inj hpure]
    have hset : is_rule_set source = false := beq_eq_false_iff_ne.2 hhead
    obtain ⟨htarget, hmatch⟩ := parse_target hrule
    refine ⟨_, rfl, ?_, ?_, hmatch, ?_⟩
    · rw [line_rules, hset, if_neg Bool.false_ne_true, toOption_eq_some_iff.2 hrule]
      rfl
    · intro other hother
      rwa [List.mem_singleton.1 hother]
    · intro _
      rw [← hmatch, Planned.rules, List.countP_singleton]

variable {sources : List String}

theorem plan_sources_for {templates : List (String × List Rule × Nat)}
    (htemplates : List.Forall₂ (fun entry template => template.1 = entry.1 ∧ TemplateOf crates assets names entry.2 template.2.1) providers templates)
    (hplan : sources.foldlM (plan_source crates templates names) ⟨0, 0, []⟩ = .ok plan) :
    List.Forall₂ (PlannedFor crates providers assets names) sources plan.items := by
  have hstep : ∀ (plan : Plan) (source : String) (next : Plan), plan_source crates templates names plan source = .ok next →
      ∃ item, next.items = plan.items ++ [item] ∧ PlannedFor crates providers assets names source item :=
    fun _ _ _ => plan_source_for htemplates
  obtain ⟨items, hlog, hitems⟩ := Traverse.foldlM_appends hstep hplan
  rw [hlog]
  exact hitems

/-! ## The final rule -/

variable {items : List Planned}

theorem any_is_match (hitems : List.Forall₂ (PlannedFor crates providers assets names) sources items) :
    items.any Planned.is_match = sources.any is_final := by
  induction hitems with
  | nil => rfl
  | cons hitem _ ih => rw [List.any_cons, List.any_cons, hitem.is_match, ih]

theorem plan_final_for {final : Plan}
    (hitems : List.Forall₂ (PlannedFor crates providers assets names) sources plan.items)
    (hfinal : plan_final crates providers names plan = .ok final) :
    ∃ closing, closing_rules providers names sources = some closing ∧
      final.items.flatMap Planned.rules = (plan.items.map Planned.rules).flatten ++ closing := by
  unfold plan_final at hfinal
  rw [any_is_match hitems] at hfinal
  unfold closing_rules
  split at hfinal
  · next hclose =>
    simp only [plan_reject, Rule.parse, bind_eq_ok_iff, okOr_eq_ok_iff] at hfinal
    obtain ⟨_, -, _, -, rule, ⟨⟨matcher, name⟩, hfields, reject, hreject, hrule⟩, hpure⟩ := hfinal
    have heq : rule_fields "MATCH,REJECT" = ["MATCH", "REJECT"] := by
      decide +kernel
    rw [heq] at hfields hrule
    obtain ⟨⟩ := hfields
    obtain rfl := Except.ok.inj hrule
    obtain rfl := Except.ok.inj hpure
    rw [if_pos hclose, hreject]
    refine ⟨_, rfl, ?_⟩
    rw [List.flatMap_append, List.flatMap_def]
    rfl
  · next hclose =>
    obtain rfl := Except.ok.inj hfinal
    rw [if_neg hclose]
    exact ⟨[], rfl, by rw [List.append_nil, List.flatMap_def]⟩

/-- The rules a configuration has of its own are among the final ones. -/
theorem countP_is_final_le (hitems : List.Forall₂ (PlannedFor crates providers assets names) sources items) :
    sources.countP is_final ≤ (items.map Planned.rules).flatten.countP (·.matcher == .Match) := by
  induction hitems with
  | nil => exact Nat.zero_le _
  | @cons source item sources items hitem _ ih =>
    rw [List.countP_cons, List.map_cons, List.flatten_cons, List.countP_append]
    by_cases hset : is_rule_set source = true
    · have hfinal : is_final source = false := by
        rw [is_final, beq_iff_eq.1 hset]
        decide
      rw [hfinal]
      exact Nat.le_add_left_of_le ih
    · rw [hitem.final (Bool.eq_false_iff.2 hset)]
      omega

/-- With no more final rules than the configuration has of its own, no provider supplies one. -/
theorem not_final_of_countP_le (hitems : List.Forall₂ (PlannedFor crates providers assets names) sources items)
    (hle : (items.map Planned.rules).flatten.countP (·.matcher == .Match) ≤ sources.countP is_final) :
    List.Forall₂ (fun source block => is_rule_set source = true → ∀ rule ∈ block, rule.matcher ≠ .Match) sources
      (items.map Planned.rules) := by
  induction hitems with
  | nil => exact .nil
  | @cons source item sources items hitem hitems ih =>
    have hrest := countP_is_final_le hitems
    rw [List.countP_cons, List.map_cons, List.flatten_cons, List.countP_append] at hle
    by_cases hset : is_rule_set source = true
    · have hfinal : is_final source = false := by
        rw [is_final, beq_iff_eq.1 hset]
        decide
      rw [hfinal, if_neg Bool.false_ne_true, Nat.add_zero] at hle
      have hzero : item.rules.countP (·.matcher == .Match) = 0 := by
        omega
      refine .cons (fun _ rule hrule hmatch => ?_) (ih (by omega))
      exact List.countP_eq_zero.1 hzero rule hrule (beq_iff_eq.2 hmatch)
    · rw [hitem.final (Bool.eq_false_iff.2 hset)] at hle
      exact .cons (fun h => absurd h hset) (ih (by omega))

theorem last_of_finals (hfinals : finals rules = [rules.length - 1]) (hne : rules ≠ []) :
    ∃ init last, rules = init ++ [last] ∧ last.matcher = .Match ∧ ∀ rule ∈ init, rule.matcher ≠ .Match := by
  obtain ⟨init, last, rfl⟩ := (List.eq_nil_or_concat' rules).resolve_left hne
  have hlength : (init ++ [last]).length - 1 = init.length := by
    simp
  rw [hlength] at hfinals
  have hmem : ∀ i (hi : i < (init ++ [last]).length), (init ++ [last])[i].matcher = .Match ↔ i = init.length := by
    intro i hi
    have hiff := List.mem_findIdxs_iff_pos_getElem (p := fun rule : Rule => rule.matcher == .Match) hi
    rw [← finals, hfinals, List.mem_singleton, beq_iff_eq] at hiff
    exact hiff.symm
  refine ⟨init, last, rfl, ?_, fun rule hrule hmatch => ?_⟩
  · have hlast := hmem init.length (by simp)
    rw [List.getElem_concat_length rfl] at hlast
    exact hlast.2 rfl
  · obtain ⟨i, hi, rfl⟩ := List.getElem_of_mem hrule
    have hindex := hmem i (by simp; omega)
    rw [List.getElem_append_left hi] at hindex
    exact Nat.ne_of_lt hi (hindex.1 hmatch)

theorem expand_flat_map {sources : List String} {rules : List Rule}
    (hexpand : expand crates sources providers assets names = .ok rules) :
    ∃ blocks closing, sources.mapM (line_rules crates providers assets names) = some blocks ∧
      closing_rules providers names sources = some closing ∧ rules = blocks.flatten ++ closing ∧
      List.Forall₂ (fun source block => ∀ rule ∈ block, names.lookup (target_of source) = some rule.proxy) sources blocks ∧
      (providers ≠ [] →
        (∃ init last, rules = init ++ [last] ∧ last.matcher = .Match ∧ ∀ rule ∈ init, rule.matcher ≠ .Match) ∧
        List.Forall₂ (fun source block => is_rule_set source = true → ∀ rule ∈ block, rule.matcher ≠ .Match) sources
          blocks) := by
  simp only [expand, bind_eq_ok_iff, bail_if_eq_ok_iff] at hexpand
  obtain ⟨_, -, _, -, read, hread, plan, hplan, final, hfinal, _, hfinals, hpure⟩ := hexpand
  obtain rfl := Except.ok.inj hpure
  have hitems := plan_sources_for (templates_of_providers hread) hplan
  obtain ⟨closing, hclosing, hrules⟩ := plan_final_for hitems hfinal
  refine ⟨plan.items.map Planned.rules, closing, ?_, hclosing, hrules, ?_, fun hne => ?_⟩
  · rw [Traverse.mapM_eq_some_iff, List.forall₂_map_right_iff]
    exact hitems.imp fun _ _ hitem => hitem.rules
  · rw [List.forall₂_map_right_iff]
    exact hitems.imp fun _ _ hitem => hitem.target
  · have hfinals' : finals (final.items.flatMap Planned.rules) = [(final.items.flatMap Planned.rules).length - 1] ∧
        final.items.flatMap Planned.rules ≠ [] := by
      simpa [hne] using hfinals
    refine ⟨last_of_finals hfinals'.1 hfinals'.2, not_final_of_countP_le hitems ?_⟩
    have hcount : (final.items.flatMap Planned.rules).countP (·.matcher == .Match) = 1 := by
      have hlen := congrArg List.length hfinals'.1
      rwa [finals, List.length_findIdxs] at hlen
    rw [hrules, List.countP_append] at hcount
    unfold closing_rules at hclosing
    split at hclosing
    · obtain ⟨reject, -, rfl⟩ := Option.map_eq_some_iff.1 hclosing
      rw [List.countP_singleton] at hcount
      exact Nat.le_trans (by simpa using hcount) (Nat.zero_le _)
    · next hclose =>
      obtain rfl := Option.some.inj hclosing
      have hany : sources.any is_final = true := by
        simpa [hne] using hclose
      obtain ⟨source, hsource, hown⟩ := List.any_eq_true.1 hany
      have hpos : 0 < sources.countP is_final := List.countP_pos_iff.2 ⟨source, hsource, hown⟩
      rw [List.countP_nil, Nat.add_zero] at hcount
      rwa [hcount]

/-! ## The number of rules -/

/-- The reservation of rules is exact. -/
def Plan.Counted (plan : Plan) : Prop :=
  (plan.items.flatMap Planned.rules).length = plan.count ∧ plan.count ≤ MAX_RULES

theorem add_budget_eq_ok {total amount max sum : Nat} {message : String} (hadd : add_budget total amount max message = .ok sum) :
    sum = total + amount ∧ sum ≤ max := by
  unfold add_budget at hadd
  split at hadd
  · next hle =>
    obtain rfl := Except.ok.inj hadd
    exact ⟨rfl, hle⟩
  · cases hadd

theorem Plan.Counted.concat (hplan : plan.Counted) {item : Planned} {amount count bytes : Nat} {message : String}
    (hcount : add_budget plan.count amount MAX_RULES message = .ok count) (hlength : item.rules.length = amount) :
    Plan.Counted ⟨count, bytes, plan.items ++ [item]⟩ := by
  obtain ⟨hsum, hle⟩ := add_budget_eq_ok hcount
  refine ⟨?_, hle⟩
  rw [List.flatMap_append, List.length_append, hplan.1, List.flatMap_singleton, hlength, hsum]

theorem length_expand_le (hexpand : expand crates sources providers assets names = .ok rules) :
    rules.length ≤ MAX_RULES := by
  simp only [expand, bind_eq_ok_iff] at hexpand
  obtain ⟨_, -, _, -, read, -, plan, hplan, final, hfinal, _, -, hpure⟩ := hexpand
  obtain rfl := Except.ok.inj hpure
  have hcounted : plan.Counted := by
    refine Traverse.foldlM_invariant (P := Plan.Counted) ⟨rfl, Nat.zero_le _⟩ ?_ hplan
    intro plan source next _ hcounted hnext
    unfold plan_source at hnext
    dsimp only at hnext
    split at hnext
    · simp only [plan_rule_set, bind_eq_ok_iff] at hnext
      obtain ⟨_, -, _, -, _, -, count, hcount, _, -, _, -, hpure⟩ := hnext
      rw [← Except.ok.inj hpure]
      exact hcounted.concat hcount (List.length_map _)
    · simp only [plan_rule, bind_eq_ok_iff] at hnext
      obtain ⟨_, -, count, hcount, _, -, hpure⟩ := hnext
      rw [← Except.ok.inj hpure]
      exact hcounted.concat hcount rfl
  have hfinal' : final.Counted := by
    unfold plan_final at hfinal
    split at hfinal
    · simp only [plan_reject, bind_eq_ok_iff] at hfinal
      obtain ⟨count, hcount, _, -, _, -, hpure⟩ := hfinal
      rw [← Except.ok.inj hpure]
      exact hcounted.concat hcount rfl
    · rw [← Except.ok.inj hfinal]
      exact hcounted
  rw [hfinal'.1]
  exact hfinal'.2

theorem length_rules_le_of_parse {cfg : Config} (hparse : Config.parse_with_assets crates source assets = .ok cfg) :
    cfg.rules.length ≤ MAX_RULES := by
  simp only [Config.parse_with_assets, Config.parse_inner, Config.of_document, bind_eq_ok_iff] at hparse
  obtain ⟨_, -, _, -, _, -, raw, -, _, -, _, -, _, -, _, -, names, -, _, -, rules, hrules, hpure⟩ := hparse
  rw [← Except.ok.inj hpure]
  exact length_expand_le hrules

/-! ## A sample -/

/-- A provider with two entries, one of them with an option that its kind does not have. -/
def listedProviders : Providers :=
  [("p", ⟨"file", "classical", "list", none, 1⟩)]

def listedAssets : Assets :=
  [("list", str.bytes "IP-CIDR,10.0.0.0/8\nDOMAIN,a.b,no-resolve\n")]

def listedNames : Names :=
  [("DIRECT", 0), ("REJECT", 1), ("jp", 2)]

def listedRules : List Rule :=
  [⟨.Ip sampleNet true, 2, "IP-CIDR", "10.0.0.0/8"⟩, ⟨.Domain "a.b", 2, "DOMAIN", "a.b"⟩, ⟨.Match, 1, "MATCH", ""⟩]

theorem listed_expanded : expand sampleCrates ["RULE-SET,p,jp,no-resolve"] listedProviders listedAssets listedNames = .ok listedRules ∧
    ∃ init last, listedRules = init ++ [last] ∧ last.matcher = .Match ∧ ∀ rule ∈ init, rule.matcher ≠ .Match := by
  have hexpand : expand sampleCrates ["RULE-SET,p,jp,no-resolve"] listedProviders listedAssets listedNames = .ok listedRules := by
    decide +kernel
  obtain ⟨_, _, _, _, _, _, hfinal⟩ := expand_flat_map hexpand
  exact ⟨hexpand, (hfinal (List.cons_ne_nil _ _)).1⟩

end zc.config
