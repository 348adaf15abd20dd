import Zc.Config.Provider

namespace zc.config

def inherit_no_resolve (rule : Rule) : Rule :=
  match rule.matcher with
  | .Ip network _ => { rule with matcher := .Ip network true }
  | .GeoIp country _ => { rule with matcher := .GeoIp country true }
  | _ => rule

/-- The first of the given heads that can be stripped off the entry. -/
def strip_first (entry : String) (heads : List String) : String :=
  (heads.findSome? (str.stripPrefix entry)).getD entry

def domain_source (entry : String) : String :=
  let domain := str.trim (strip_first entry ["DOMAIN-SUFFIX,", "DOMAIN,", "+.", "."])
  "DOMAIN-SUFFIX," ++ domain ++ ",DIRECT"

def ipcidr_source (entry : String) : String :=
  let cidr := str.trim (strip_first entry ["IP-CIDR,", "IP-CIDR6,"])
  let kind := if cidr.toList.contains ':' then "IP-CIDR6" else "IP-CIDR"
  kind ++ "," ++ cidr ++ ",DIRECT"

/-- Whether the options of a classical entry hold `no-resolve`; any other option is an error. -/
def classical_options (options : List String) : Result Bool :=
  if options.all fun option => option = "no-resolve" || option = "" then
    pure (options.contains "no-resolve")
  else bail "classical provider entries cannot declare targets or unknown options"

def classical_source (entry : String) : Result (String × Bool) :=
  match (str.split entry ',').map (str.trimMatches fun c => c == ' ' || c == '\t') with
  | [] => bail "invalid classical rule"
  | kind :: fields =>
    if kind = "RULE-SET" then bail "recursive rule-provider RULE-SET is unsupported"
    else if kind = "MATCH" then do
      pure ("MATCH,DIRECT", ← classical_options fields)
    else
      match fields with
      | [] => bail "classical rule requires payload"
      | payload :: options => do
        pure (kind ++ "," ++ payload ++ ",DIRECT", ← classical_options options)

def provider_source (entry behavior : String) : Result (String × Bool) :=
  if behavior = "domain" then pure (domain_source entry, false)
  else if behavior = "ipcidr" then pure (ipcidr_source entry, false)
  else if behavior = "classical" then classical_source entry
  else .error (.panic "provider behavior validated")

def provider_rule (crates : Crates) (entry behavior : String) (names : Names) : Result Rule := do
  let entry := str.trimMatches (fun c => c == ' ' || c == '\t' || c == '\r') entry
  let (source, no_resolve) ← provider_source entry behavior
  let rule ← Rule.parse crates source names
  pure (if no_resolve then inherit_no_resolve rule else rule)

/-- The running totals of the providers read so far, and their rules. -/
structure Templates where
  normalized_count : Nat
  normalized_bytes : Nat
  raw_bytes : Nat
  templates : List (String × List Rule × Nat)

/-- The rules of one provider's entries, with their byte count and the aggregate one. -/
def provider_rules (crates : Crates) (behavior : String) (names : Names) :
    (normalized_bytes : Nat) → List String → Result (List Rule × Nat × Nat)
  | normalized_bytes, [] => pure ([], 0, normalized_bytes)
  | normalized_bytes, entry :: rest => do
    let normalized_bytes ← add_budget normalized_bytes (str.len entry) MAX_AGGREGATE_BYTES
      "rule-provider aggregate normalized bytes limit exceeded"
    let rule ← provider_rule crates entry behavior names
    let (rules, entry_bytes, normalized_bytes) ← provider_rules crates behavior names normalized_bytes rest
    pure (rule :: rules, str.len entry + entry_bytes, normalized_bytes)

def add_template (crates : Crates) (assets : Assets) (names : Names) (read : Templates)
    (entry : String × Provider) : Result Templates := do
  let (name, provider) := entry
  let bytes ← okOr (assets.lookup provider.path) (.message
    "missing immutable rule-provider asset; capture files or fetch HTTP providers before parsing")
  let raw_bytes ← add_budget read.raw_bytes bytes.length MAX_AGGREGATE_BYTES
    "rule-provider aggregate source bytes limit exceeded"
  let source ← okOr (str.from_utf8 bytes) (.message "rule-provider source must be UTF-8")
  let entries ← entries crates source provider.behavior
  let normalized_count ← add_budget read.normalized_count entries.length MAX_RULES
    "rule-provider aggregate entry count limit exceeded"
  let (rules, entry_bytes, normalized_bytes) ←
    provider_rules crates provider.behavior names read.normalized_bytes entries
  pure { normalized_count, normalized_bytes, raw_bytes,
         templates := read.templates ++ [(name, rules, entry_bytes)] }

inductive Planned where
  | single (rule : Rule)
  | provided (rules : List Rule) (proxy : Nat) (no_resolve : Bool)

/-- The plan so far with its reservations of rules and bytes. -/
structure Plan where
  count : Nat
  bytes : Nat
  items : List Planned

/-- The provider, the target and the option of a `RULE-SET` rule. -/
def rule_set_fields : List String → Result (String × String × Bool)
  | [_, name, target] => pure (name, target, false)
  | [_, name, target, option] =>
    if option = "no-resolve" then pure (name, target, true) else bail "invalid RULE-SET declaration"
  | _ => bail "invalid RULE-SET declaration"

def plan_rule_set (templates : List (String × List Rule × Nat)) (names : Names) (plan : Plan)
    (fields : List String) : Result Plan := do
  let (name, target, no_resolve) ← rule_set_fields fields
  let (rules, entry_bytes) ← okOr (templates.lookup name) (.message "RULE-SET references unknown provider")
  let proxy ← okOr (names.lookup target) (.message "rule references unknown proxy or group")
  let count ← add_budget plan.count rules.length MAX_RULES "expanded rule count limit exceeded"
  let bytes ← add_budget plan.bytes (str.len target * rules.length) MAX_AGGREGATE_BYTES
    "expanded rule bytes limit exceeded"
  let bytes ← add_budget bytes entry_bytes MAX_AGGREGATE_BYTES "expanded rule bytes limit exceeded"
  pure { count, bytes, items := plan.items ++ [.provided rules proxy no_resolve] }

def plan_rule (crates : Crates) (names : Names) (plan : Plan) (source : String) (fields : List String) :
    Result Plan := do
  let rule ← Rule.parse crates source names
  let count ← add_budget plan.count 1 MAX_RULES "expanded rule count limit exceeded"
  let target := if fields.headD "" = "MATCH" then (fields.drop 1).headD "" else (fields.drop 2).headD ""
  let bytes ← add_budget plan.bytes (str.len rule.payload + str.len target) MAX_AGGREGATE_BYTES
    "expanded rule bytes limit exceeded"
  pure { count, bytes, items := plan.items ++ [.single rule] }

def plan_source (crates : Crates) (templates : List (String × List Rule × Nat)) (names : Names) (plan : Plan)
    (source : String) : Result Plan :=
  let fields := rule_fields source
  if fields.head? = some "RULE-SET" then plan_rule_set templates names plan fields
  else plan_rule crates names plan source fields

def Planned.is_match : Planned → Bool
  | .single rule => rule.matcher == .Match
  | .provided .. => false

/-- Reserve the fail-closed final rule. -/
def plan_reject (crates : Crates) (names : Names) (plan : Plan) : Result Plan := do
  let count ← add_budget plan.count 1 MAX_RULES "expanded rule count limit exceeded"
  let bytes ← add_budget plan.bytes (str.len "REJECT") MAX_AGGREGATE_BYTES "expanded rule bytes limit exceeded"
  let rule ← Rule.parse crates "MATCH,REJECT" names
  pure { count, bytes, items := plan.items ++ [.single rule] }

/-- Providers need a final rule; one that a provider supplies does not count. -/
def plan_final (crates : Crates) (providers : Providers) (names : Names) (plan : Plan) : Result Plan :=
  if !providers.isEmpty && !plan.items.any Planned.is_match then plan_reject crates names plan else pure plan

def Planned.rules : Planned → List Rule
  | .single rule => [rule]
  | .provided rules proxy no_resolve =>
    rules.map fun rule =>
      let rule := { rule with proxy }
      if no_resolve then inherit_no_resolve rule else rule

/-- The indices of the `MATCH` rules. -/
def finals (rules : List Rule) : List Nat :=
  rules.findIdxs (fun rule => rule.matcher == .Match)

def expand (crates : Crates) (source_rules : List String) (providers : Providers) (assets : Assets) (names : Names) :
    Result (List Rule) := do
  validate crates providers
  asset_budget assets
  let read ← providers.foldlM (add_template crates assets names) ⟨0, 0, 0, []⟩
  let plan ← source_rules.foldlM (plan_source crates read.templates names) ⟨0, 0, []⟩
  let plan ← plan_final crates providers names plan
  let expanded := plan.items.flatMap Planned.rules
  bail_if (!providers.isEmpty && (finals expanded ≠ [expanded.length - 1] || expanded.isEmpty))
    "expanded provider rules require exactly one final MATCH at the end"
  pure expanded

/-- `Config::validate_declarations` checks the rules without the provider files. -/
def validate_rule_declaration (crates : Crates) (providers : Providers) (names : Names) (source : String) :
    Result Unit := do
  let fields := ((str.split source ',').take 5).map str.trim
  if fields.head? = some "RULE-SET" then
    let (name, target, _) ← rule_set_fields fields
    bail_if ((providers.lookup name).isNone) "RULE-SET references unknown provider"
    bail_if ((names.lookup target).isNone) "rule references an unknown proxy or group"
  else
    let _ ← Rule.parse crates source names

def validate_rule_declarations (crates : Crates) (rules : List String) (providers : Providers) (names : Names) :
    Result Unit := do
  validate crates providers
  rules.forM (validate_rule_declaration crates providers names)

end zc.config
