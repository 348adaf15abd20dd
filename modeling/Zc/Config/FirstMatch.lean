import Mathlib.Order.Bounds.Defs
import Zc.Config.Matching
import Zc.Config.Resolve

/-!
# Routing is first match

The loop of `route_inner` asks for addresses lazily and carries the answer along. Up to the first rule
that ends it, its state is a function of the rules it has passed.
-/

namespace zc.config

/-- The resolution after passing some rules. -/
def Query.passed (query : Query) (rules : List Rule) : Resolution :=
  match query.dns with
  | .ok answer =>
    if query.literal_ip.isNone && rules.any (·.matcher.resolves) then ⟨some answer, 1⟩ else ⟨none, 0⟩
  | .error _ => ⟨none, 0⟩

/-- Whether the name may still be kept after passing some rules. -/
def Config.allowed_after (cfg : Config) (allowed : Bool) (rules : List Rule) : Bool :=
  allowed && rules.all fun rule => !rule.matcher.resolves || cfg.is_direct rule

/-- The loop ends at a rule that matches, or whose lookup fails. -/
def Stops (crates : Crates) (query : Query) (matcher : Matcher) : Prop :=
  Matches crates query query.addresses matcher ∨
    (query.literal_ip = none ∧ matcher.resolves = true ∧ ∃ error, query.dns = .error error)

variable {rules front : List Rule} {rule : Rule}

section Loop

variable {cfg : Config} {crates : Crates} {query : Query}

theorem Query.known_passed (query : Query) (rules : List Rule) : (query.passed rules).Known query := by
  intro answer hanswer
  unfold Query.passed at hanswer
  split at hanswer
  · rename_i found hdns
    split at hanswer
    · obtain rfl := Option.some.inj hanswer
      exact hdns
    · cases hanswer
  · cases hanswer

theorem Query.lookups_passed_le (query : Query) (rules : List Rule) : (query.passed rules).lookups ≤ 1 := by
  unfold Query.passed
  split
  · split <;> simp
  · simp

theorem Query.passed_of_looked {answer : Answer} (hdomain : query.literal_ip = none)
    (hresolves : rule.matcher.resolves = true) (hdns : query.dns = .ok answer) :
    query.passed (rules ++ [rule]) = ⟨some answer, 1⟩ := by
  simp [Query.passed, hdns, hdomain, hresolves]

theorem Query.passed_of_plain (hplain : ¬ (query.literal_ip = none ∧ rule.matcher.resolves = true)) :
    query.passed (rules ++ [rule]) = query.passed rules := by
  unfold Query.passed
  split
  · cases hdomain : query.literal_ip <;> simp_all
  · rfl

private theorem lookups_of_passed {answer : Answer} (hdomain : query.literal_ip = none)
    (hdns : query.dns = .ok answer) (rules : List Rule) :
    (if (query.passed rules).resolved.isSome then (query.passed rules).lookups
      else (query.passed rules).lookups + 1) = 1 := by
  cases hany : rules.any (·.matcher.resolves) <;> simp [Query.passed, hdns, hdomain, hany]

/-- One turn that does not end the loop. -/
theorem Config.route_rules_pass {rest : List Rule} {index : Nat} {allowed : Bool}
    (hstops : ¬ Stops crates query rule.matcher) :
    cfg.route_rules crates query (rule :: rest) index allowed (query.passed rules) =
      cfg.route_rules crates query rest (index + 1) (cfg.allowed_after allowed [rule]) (query.passed (rules ++ [rule])) := by
  have houtcome := outcome_of_match_rule crates rule.matcher (query.known_passed rules)
  rw [Config.route_rules]
  generalize match_rule crates query rule.matcher (query.passed rules) = result at houtcome
  cases houtcome with
  | failed hdomain hresolves hdns => exact absurd (.inr ⟨hdomain, hresolves, _, hdns⟩) hstops
  | looked hdomain hresolves hdns hlookups =>
    rename_i answer lookups
    have hnone : answer.addresses.find? (rule.matcher.holds crates) = none := by
      rw [List.find?_eq_none]
      intro ip hip hholds
      refine hstops (.inl ((matches_iff_of_resolves hdomain hresolves).2 ⟨ip, ?_, hholds⟩))
      simpa [Query.addresses, hdns] using hip
    rw [lookups_of_passed hdomain hdns] at hlookups
    subst hlookups
    rw [Query.passed_of_looked hdomain hresolves hdns]
    simp [hnone, Config.allowed_after]
  | plain hplain hmatched =>
    rename_i matched
    cases matched with
    | true => exact absurd (.inl (hmatched.1 rfl)) hstops
    | false =>
      rw [Query.passed_of_plain hplain]
      simp [Config.allowed_after]

theorem Config.allowed_after_append (allowed : Bool) (front back : List Rule) :
    cfg.allowed_after (cfg.allowed_after allowed front) back = cfg.allowed_after allowed (front ++ back) := by
  simp [Config.allowed_after, Bool.and_assoc]

/-- The loop behind the rules that do not end it. -/
theorem Config.route_inner_eq {rest : List Rule} (allowed : Bool) (hrules : cfg.rules = front ++ rest)
    (hfront : ∀ rule ∈ front, ¬ Stops crates query rule.matcher) :
    cfg.route_inner crates query allowed =
      cfg.route_rules crates query rest front.length (cfg.allowed_after allowed front) (query.passed front) := by
  induction front using List.reverseRecOn generalizing rest with
  | nil =>
    have hstart : query.passed [] = ⟨none, 0⟩ := by
      unfold Query.passed
      split <;> simp
    rw [hstart, Config.route_inner, hrules]
    simp [Config.allowed_after]
  | append_singleton front rule ih =>
    rw [ih (by simpa using hrules) fun other hother => hfront other (by simp [hother]),
      Config.route_rules_pass (hfront rule (by simp)), Config.allowed_after_append, List.length_append]
    rfl

/-- Either no rule ends the loop, or there is a first one that does. -/
theorem exists_first_stop (crates : Crates) (query : Query) (rules : List Rule) :
    (∀ rule ∈ rules, ¬ Stops crates query rule.matcher) ∨
      ∃ front rule back, rules = front ++ rule :: back ∧ Stops crates query rule.matcher ∧
        ∀ other ∈ front, ¬ Stops crates query other.matcher := by
  classical
  cases hfind : rules.find? (fun rule => decide (Stops crates query rule.matcher)) with
  | none =>
    left
    simpa using List.find?_eq_none.1 hfind
  | some rule =>
    right
    obtain ⟨hstops, front, back, hrules, hfront⟩ := List.find?_eq_some_iff_append.1 hfind
    exact ⟨front, rule, back, hrules, by simpa using hstops, by simpa using hfront⟩

/-- The loop at a rule whose lookup fails. -/
theorem Config.route_inner_failed {back : List Rule} {error : Error} (allowed : Bool)
    (hrules : cfg.rules = front ++ rule :: back) (hfront : ∀ other ∈ front, ¬ Stops crates query other.matcher)
    (hdomain : query.literal_ip = none) (hresolves : rule.matcher.resolves = true) (hdns : query.dns = .error error) :
    cfg.route_inner crates query allowed = (.error error, 1) := by
  rw [Config.route_inner_eq allowed hrules hfront, Config.route_rules]
  have houtcome := outcome_of_match_rule crates rule.matcher (query.known_passed front)
  generalize match_rule crates query rule.matcher (query.passed front) = result at houtcome
  cases houtcome with
  | failed _ _ hdns' =>
    obtain rfl := Except.error.inj (hdns.symm.trans hdns')
    simp [Query.passed, hdns]
  | looked _ _ hdns' => cases hdns.symm.trans hdns'
  | plain hplain => exact absurd ⟨hdomain, hresolves⟩ hplain

/-- The address a matching rule pins: the first one of the answer that it holds for. -/
structure Pins (crates : Crates) (query : Query) (matcher : Matcher) (pinned : Option net.IpAddr) : Prop where
  looked : query.literal_ip = none → matcher.resolves = true →
    ∃ ip ∈ query.addresses, matcher.holds crates ip = true ∧ pinned = some ip
  plain : ¬ (query.literal_ip = none ∧ matcher.resolves = true) → pinned = none

/-- The loop at the first rule that matches. -/
theorem Config.route_inner_matched {back : List Rule} (allowed : Bool) (hrules : cfg.rules = front ++ rule :: back)
    (hfront : ∀ other ∈ front, ¬ Stops crates query other.matcher)
    (hmatches : Matches crates query query.addresses rule.matcher) :
    ∃ pinned, Pins crates query rule.matcher pinned ∧
      cfg.route_inner crates query allowed =
        (cfg.finish query.target rule front.length (cfg.allowed_after allowed (front ++ [rule])) pinned
          (query.passed (front ++ [rule])).resolved, (query.passed (front ++ [rule])).lookups) := by
  rw [Config.route_inner_eq allowed hrules hfront, Config.route_rules]
  have hallowed : (cfg.allowed_after allowed front && (!rule.matcher.resolves || cfg.is_direct rule)) =
      cfg.allowed_after allowed (front ++ [rule]) := by
    simp [Config.allowed_after, Bool.and_assoc]
  have houtcome := outcome_of_match_rule crates rule.matcher (query.known_passed front)
  generalize match_rule crates query rule.matcher (query.passed front) = result at houtcome
  cases houtcome with
  | failed hdomain hresolves hdns =>
    obtain ⟨ip, hip, -⟩ := (matches_iff_of_resolves hdomain hresolves).1 hmatches
    simp [Query.addresses, hdns] at hip
  | looked hdomain hresolves hdns hlookups =>
    rename_i answer lookups
    have haddresses : query.addresses = answer.addresses := by
      simp [Query.addresses, hdns]
    obtain ⟨ip, hip, hholds⟩ := (matches_iff_of_resolves hdomain hresolves).1 hmatches
    have hsome : (answer.addresses.find? (rule.matcher.holds crates)).isSome = true := by
      rw [List.find?_isSome]
      exact ⟨ip, haddresses ▸ hip, hholds⟩
    obtain ⟨found, hfound⟩ := Option.isSome_iff_exists.1 hsome
    rw [lookups_of_passed hdomain hdns] at hlookups
    subst hlookups
    refine ⟨some found, ⟨?_, ?_⟩, ?_⟩
    · intro _ _
      exact ⟨found, haddresses ▸ List.mem_of_find?_eq_some hfound, List.find?_some hfound, rfl⟩
    · intro hplain
      exact absurd ⟨hdomain, hresolves⟩ hplain
    · rw [Query.passed_of_looked hdomain hresolves hdns]
      simp [hfound, hallowed]
  | plain hplain hmatched =>
    rename_i matched
    obtain rfl : matched = true := hmatched.2 hmatches
    refine ⟨none, ⟨?_, ?_⟩, ?_⟩
    · intro hdomain hresolves
      exact absurd ⟨hdomain, hresolves⟩ hplain
    · intro _
      rfl
    · rw [Query.passed_of_plain hplain]
      simp [hallowed]

/-- How the loop can end: behind the last rule, at a rule whose lookup fails, or at the first match. -/
inductive Ending (cfg : Config) (crates : Crates) (query : Query) (allowed : Bool) : Result Route × Nat → Prop where
  | exhausted (hnone : ∀ rule ∈ cfg.rules, ¬ Stops crates query rule.matcher) :
      Ending cfg crates query allowed
        (bail "no routing rule matched; connection denied", (query.passed cfg.rules).lookups)
  | failed {front back : List Rule} {rule : Rule} {error : Error} (hrules : cfg.rules = front ++ rule :: back)
      (hfront : ∀ other ∈ front, ¬ Stops crates query other.matcher) (hdomain : query.literal_ip = none)
      (hresolves : rule.matcher.resolves = true) (hdns : query.dns = .error error) :
      Ending cfg crates query allowed (.error error, 1)
  | matched {front back : List Rule} {rule : Rule} {pinned : Option net.IpAddr}
      (hrules : cfg.rules = front ++ rule :: back) (hfront : ∀ other ∈ front, ¬ Stops crates query other.matcher)
      (hmatches : Matches crates query query.addresses rule.matcher) (hpins : Pins crates query rule.matcher pinned) :
      Ending cfg crates query allowed
        (cfg.finish query.target rule front.length (cfg.allowed_after allowed (front ++ [rule])) pinned
          (query.passed (front ++ [rule])).resolved, (query.passed (front ++ [rule])).lookups)

theorem ending_of_route_inner (cfg : Config) (crates : Crates) (query : Query) (allowed : Bool) :
    Ending cfg crates query allowed (cfg.route_inner crates query allowed) := by
  rcases exists_first_stop crates query cfg.rules with hnone | ⟨front, rule, back, hrules, hstops, hfront⟩
  · rw [cfg.route_inner_eq allowed (List.append_nil _).symm hnone, Config.route_rules]
    exact .exhausted hnone
  · rcases hstops with hmatches | ⟨hdomain, hresolves, error, hdns⟩
    · obtain ⟨pinned, hpins, hrun⟩ := cfg.route_inner_matched allowed hrules hfront hmatches
      rw [hrun]
      exact .matched hrules hfront hmatches hpins
    · rw [cfg.route_inner_failed allowed hrules hfront hdomain hresolves hdns]
      exact .failed hrules hfront hdomain hresolves hdns

/-- The address a route is pinned to, if any. -/
def pinned_address (pinned : Option net.IpAddr) (remote : Bool) (resolved : Option Answer) : Option net.IpAddr :=
  pinned.orElse fun _ => if remote then none else resolved.map Answer.first

@[simp]
theorem pinned_address_some (ip : net.IpAddr) (remote : Bool) (resolved : Option Answer) :
    pinned_address (some ip) remote resolved = some ip := rfl

@[simp]
theorem pinned_address_none (remote : Bool) (resolved : Option Answer) :
    pinned_address none remote resolved = if remote then none else resolved.map Answer.first := rfl

theorem dial_target_ok (target : Target) (pinned : Option net.IpAddr) :
    ∃ dialled, dial_target target pinned = .ok dialled := by
  cases pinned with
  | none => exact ⟨target, rfl⟩
  | some ip => exact ⟨_, Target.new_to_string ip target.port_ne_zero⟩

/-- A pinned address is read back from the target that is dialled. -/
theorem parse_ip_of_dial_target {target dialled : Target} {pinned : Option net.IpAddr}
    (hdial : dial_target target pinned = .ok dialled) :
    (∃ ip, pinned = some ip ∧ net.parse_ip dialled.host = some ip) ∨ (pinned = none ∧ dialled = target) := by
  cases pinned with
  | none => exact .inr ⟨rfl, (Except.ok.inj hdial).symm⟩
  | some ip =>
    obtain rfl := Except.ok.inj ((Target.new_to_string ip target.port_ne_zero).symm.trans hdial)
    exact .inl ⟨ip, rfl, net.parse_ip_to_string ip⟩

/-- A matching rule of a well-formed configuration always gives a route. -/
theorem Config.WellFormed.finish_ok (hcfg : cfg.WellFormed) (hrule : rule ∈ cfg.rules) (target : Target) (index : Nat)
    (allowed : Bool) (pinned : Option net.IpAddr) (resolved : Option Answer) :
    ∃ route, cfg.finish target rule index allowed pinned resolved = .ok route ∧ route.rule_index = index ∧
      cfg.resolve_proxy rule.proxy = .ok route.leaf_index ∧ cfg.proxies[route.leaf_index]? = some route.proxy ∧
      dial_target target (pinned_address pinned (allowed && route.proxy.kind.is_remote) resolved) =
        .ok route.target := by
  obtain ⟨leaf, hleaf, hlt, -⟩ := hcfg.resolve_proxy (hcfg.rules_below rule hrule)
  have hproxy := List.getElem?_eq_getElem hlt
  obtain ⟨dialled, hdialled⟩ := dial_target_ok target
    (pinned_address pinned (allowed && cfg.proxies[leaf].kind.is_remote) resolved)
  refine ⟨⟨cfg.proxies[leaf], index, leaf, dialled⟩, ?_, rfl, hleaf, hproxy, hdialled⟩
  unfold Config.finish
  simp only [bind_eq_ok_iff, okOr_eq_ok_iff]
  exact ⟨leaf, hleaf, _, hproxy, dialled, hdialled, rfl⟩

end Loop

end zc.config
