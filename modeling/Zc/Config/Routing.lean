import Zc.Config.FirstMatch

namespace zc.config

/-- Some rule that asks for addresses stands before every rule that matches without them. -/
def LookupFirst (crates : Crates) (query : Query) (rules : List Rule) : Prop :=
  ∃ (index : Nat) (rule : Rule), rules[index]? = some rule ∧ rule.matcher.resolves = true ∧
    ∀ (other : Nat) (found : Rule), rules[other]? = some found → Matches crates query [] found.matcher → index < other

/-- The target is a domain, and some rule that asks for addresses comes before any match. -/
def LookupReached (crates : Crates) (query : Query) (rules : List Rule) : Prop :=
  query.literal_ip = none ∧ ∃ (index : Nat) (rule : Rule), rules[index]? = some rule ∧ rule.matcher.resolves = true ∧
    ∀ other < index, ∀ found : Rule, rules[other]? = some found → ¬ Matches crates query query.addresses found.matcher

/-- The positions of the rules that match. -/
def matchIndices (crates : Crates) (query : Query) (rules : List Rule) : Set Nat :=
  {index | ∃ rule, rules[index]? = some rule ∧ Matches crates query query.addresses rule.matcher}

variable {front back : List Rule} {rule : Rule}

private theorem mem_front {other : Rule} {index : Nat} (hget : (front ++ rule :: back)[index]? = some other)
    (hlt : index < front.length) : other ∈ front := by
  rw [List.getElem?_append_left hlt] at hget
  exact List.mem_of_getElem? hget

private theorem get_middle (front back : List Rule) (rule : Rule) :
    (front ++ rule :: back)[front.length]? = some rule := by
  simp

variable {crates : Crates} {query : Query}

/-- The least match is the rule the loop ends at, unless that one's lookup fails. -/
private theorem isLeast_of_first (hfront : ∀ other ∈ front, ¬ Stops crates query other.matcher)
    (hmatches : Matches crates query query.addresses rule.matcher) :
    IsLeast (matchIndices crates query (front ++ rule :: back)) front.length := by
  refine ⟨⟨rule, get_middle front back rule, hmatches⟩, ?_⟩
  rintro index ⟨other, hother, hmatch⟩
  by_contra hlt
  exact hfront other (mem_front hother (by omega)) (.inl hmatch)

variable {error : Error}

private theorem addresses_of_error (hdns : query.dns = .error error) : query.addresses = [] := by
  simp [Query.addresses, hdns]

/-- A failing lookup ends the loop first exactly when it stands before every other match. -/
private theorem lookupFirst_of_failed (hfront : ∀ other ∈ front, ¬ Stops crates query other.matcher)
    (hdomain : query.literal_ip = none) (hresolves : rule.matcher.resolves = true) (hdns : query.dns = .error error) :
    LookupFirst crates query (front ++ rule :: back) := by
  refine ⟨front.length, rule, get_middle front back rule, hresolves, ?_⟩
  intro other found hfound hmatch
  rw [← addresses_of_error hdns] at hmatch
  by_contra hle
  by_cases heq : other = front.length
  · subst heq
    rw [get_middle] at hfound
    obtain rfl := Option.some.inj hfound
    obtain ⟨ip, hip, -⟩ := (matches_iff_of_resolves hdomain hresolves).1 hmatch
    rw [addresses_of_error hdns] at hip
    cases hip
  · exact hfront found (mem_front hfound (by omega)) (.inl hmatch)

/-- Where a lookup stands before every match and fails, no rule matches before it. -/
private theorem not_matches_of_lookupFirst (hfront : ∀ other ∈ front, ¬ Stops crates query other.matcher)
    (hdomain : query.literal_ip = none) (hdns : query.dns = .error error)
    (hfirst : LookupFirst crates query (front ++ rule :: back)) :
    ¬ Matches crates query query.addresses rule.matcher := by
  intro hmatch
  obtain ⟨index, resolving, hget, hresolves, hbefore⟩ := hfirst
  rw [addresses_of_error hdns] at hmatch
  have hlt := hbefore _ rule (get_middle front back rule) hmatch
  exact hfront resolving (mem_front hget hlt) (.inr ⟨hdomain, hresolves, error, hdns⟩)

private theorem lookupReached_of_passed {visited : List Rule}
    (hbefore : ∀ (other : Nat) (found : Rule), other + 1 < visited.length → visited[other]? = some found → ¬ Matches crates query query.addresses found.matcher)
    (hlooked : (query.passed visited).lookups ≠ 0) : LookupReached crates query (visited ++ back) := by
  unfold Query.passed at hlooked
  split at hlooked
  · split at hlooked
    · rename_i hcond
      simp only [Bool.and_eq_true, Option.isNone_iff_eq_none, List.any_eq_true] at hcond
      obtain ⟨hdomain, rule, hmem, hresolves⟩ := hcond
      obtain ⟨index, hget⟩ := List.mem_iff_getElem?.1 hmem
      have hlt : index < visited.length := (List.getElem?_eq_some_iff.1 hget).1
      refine ⟨hdomain, index, rule, by rw [List.getElem?_append_left hlt, hget], hresolves, ?_⟩
      intro other hother found hfound
      rw [List.getElem?_append_left (by omega)] at hfound
      exact hbefore other found (by omega) hfound
    · simp at hlooked
  · simp at hlooked

/-- Routing is first match with one lazy lookup. It fails where a failing lookup comes before every
    match, and otherwise takes the least matching rule with the leaf of its target, or fails where none
    matches. It asks for addresses at most once, and only for a domain and a rule that needs them. -/
theorem route_inner_first_match {crates : Crates} {source : String} {assets : Assets} {cfg : Config}
    (hparse : Config.parse_with_assets crates source assets = .ok cfg) (calls : List SelectionCall) (query : Query)
    (allowed : Bool) :
    (∀ error, query.literal_ip = none → query.dns = .error error → LookupFirst crates query cfg.rules →
      ((cfg.after calls).route_inner crates query allowed).1 = .error error) ∧
    (¬ (query.literal_ip = none ∧ (∃ error, query.dns = .error error) ∧ LookupFirst crates query cfg.rules) →
      (∀ index, IsLeast (matchIndices crates query cfg.rules) index → ∃ rule route, cfg.rules[index]? = some rule ∧
        ((cfg.after calls).route_inner crates query allowed).1 = .ok route ∧ route.rule_index = index ∧
        (cfg.after calls).resolve_proxy rule.proxy = .ok route.leaf_index ∧
        cfg.proxies[route.leaf_index]? = some route.proxy) ∧
      (matchIndices crates query cfg.rules = ∅ →
        ∃ error, ((cfg.after calls).route_inner crates query allowed).1 = .error error)) ∧
    ((cfg.after calls).route_inner crates query allowed).2 ≤ 1 ∧
    (((cfg.after calls).route_inner crates query allowed).2 ≠ 0 → LookupReached crates query cfg.rules) := by
  have hcfg := (Config.wellFormed_of_parse hparse).after calls
  obtain ⟨selections, hafter⟩ := cfg.after_eq calls
  have hsame : (cfg.after calls).rules = cfg.rules := by
    rw [hafter]
  have hproxies : (cfg.after calls).proxies = cfg.proxies := by
    rw [hafter]
  rw [← hsame, ← hproxies]
  generalize cfg.after calls = cfg at hcfg
  have hending := ending_of_route_inner cfg crates query allowed
  generalize cfg.route_inner crates query allowed = run at hending
  cases hending with
  | exhausted hnone =>
    refine ⟨?_, fun _ => ⟨?_, fun _ => ⟨_, rfl⟩⟩, query.lookups_passed_le _, ?_⟩
    · rintro error hdomain hdns ⟨index, rule, hget, hresolves, -⟩
      exact absurd (.inr ⟨hdomain, hresolves, error, hdns⟩) (hnone rule (List.mem_of_getElem? hget))
    · rintro index ⟨⟨rule, hget, hmatch⟩, -⟩
      exact absurd (.inl hmatch) (hnone rule (List.mem_of_getElem? hget))
    · intro hlooked
      rw [← List.append_nil cfg.rules]
      refine lookupReached_of_passed ?_ hlooked
      intro other found _ hfound hmatch
      exact hnone found (List.mem_of_getElem? hfound) (.inl hmatch)
  | failed hrules hfront hdomain hresolves hdns =>
    rename_i front back rule error
    refine ⟨?_, ?_, le_refl 1, fun _ => ⟨hdomain, front.length, rule, ?_, hresolves, ?_⟩⟩
    · intro other _ hother _
      obtain rfl := Except.error.inj (hdns.symm.trans hother)
      rfl
    · intro hnot
      exact absurd ⟨hdomain, ⟨error, hdns⟩, hrules ▸ lookupFirst_of_failed hfront hdomain hresolves hdns⟩ hnot
    · rw [hrules, get_middle]
    · intro other hother found hfound hmatch
      rw [hrules] at hfound
      exact hfront found (mem_front hfound hother) (.inl hmatch)
  | matched hrules hfront hmatches hpins =>
    rename_i front back rule pinned
    have hmem : rule ∈ cfg.rules := by
      simp [hrules]
    obtain ⟨route, hroute, hindex, hleaf, hproxy, -⟩ := hcfg.finish_ok hmem query.target front.length
      (cfg.allowed_after allowed (front ++ [rule])) pinned (query.passed (front ++ [rule])).resolved
    have hleast : IsLeast (matchIndices crates query cfg.rules) front.length :=
      hrules ▸ isLeast_of_first hfront hmatches
    refine ⟨?_, fun _ => ⟨?_, ?_⟩, query.lookups_passed_le _, ?_⟩
    · intro error hdomain hdns hfirst
      rw [hrules] at hfirst
      exact absurd hmatches (not_matches_of_lookupFirst hfront hdomain hdns hfirst)
    · intro index hindex'
      obtain rfl := hindex'.unique hleast
      exact ⟨rule, route, by rw [hrules, get_middle], hroute, hindex, hleaf, hproxy⟩
    · intro hempty
      rw [hempty] at hleast
      exact absurd hleast.1 (Set.notMem_empty _)
    · intro hlooked
      rw [hrules, List.append_cons]
      refine lookupReached_of_passed ?_ hlooked
      intro other found hother hfound hmatch
      rw [List.length_append, List.length_singleton] at hother
      rw [List.getElem?_append_left (by omega)] at hfound
      exact hfront found (List.mem_of_getElem? hfound) (.inl hmatch)

/-- A query for a name under the sample's suffix rule, with one address outside its network. -/
def sampleQuery : Query where
  target := ⟨"www.example.org", 443, by decide⟩
  context := ⟨none, none, none⟩
  dns := .ok ⟨[.V4 ⟨192, 0, 2, 1⟩], by simp⟩

private theorem sample_domain : sampleQuery.literal_ip = none := by
  decide +kernel

/-- In the sample, the suffix rule is the least match: the network holds for no address. -/
theorem route_inner_sample : ∃ cfg route, Config.parse_with_assets sampleCrates sampleSource [] = .ok cfg ∧
    ((cfg.after []).route_inner sampleCrates sampleQuery true).1 = .ok route ∧ route.rule_index = 1 ∧
    ((cfg.after []).route_inner sampleCrates sampleQuery true).2 ≤ 1 := by
  obtain ⟨cfg, hcfg, hparts⟩ := sample_accepted
  have hrules : cfg.rules = sampleParts.2.1 := congrArg (·.2.1) hparts
  obtain ⟨-, hmatch, hlookups, -⟩ := route_inner_first_match hcfg [] sampleQuery true
  have hleast : IsLeast (matchIndices sampleCrates sampleQuery cfg.rules) 1 := by
    rw [hrules]
    refine ⟨⟨_, rfl, sample_domain, by decide +kernel⟩, ?_⟩
    rintro index ⟨rule, hget, hmatches⟩
    by_contra hlt
    obtain rfl : index = 0 := by omega
    obtain rfl := Option.some.inj hget
    obtain ⟨ip, hip, hholds⟩ := (matches_iff_of_resolves sample_domain rfl).1 hmatches
    obtain rfl := List.mem_singleton.1 hip
    cases hholds
  obtain ⟨-, route, -, hroute, hindex, -⟩ := (hmatch (by rintro ⟨-, ⟨error, herror⟩, -⟩; cases herror)).1 1 hleast
  exact ⟨cfg, route, hcfg, hroute, hindex, hlookups⟩

/-- The name may be kept only if every rule passed was a direct one or asked for no address. -/
private theorem direct_of_allowed_after {cfg : Config} {allowed : Bool} {rules : List Rule}
    (hallowed : cfg.allowed_after allowed rules = true) (hrule : rule ∈ rules)
    (hresolves : rule.matcher.resolves = true) :
    ∃ proxy, cfg.proxies[rule.proxy]? = some proxy ∧ proxy.kind = .Direct := by
  simp only [Config.allowed_after, Bool.and_eq_true, List.all_eq_true] at hallowed
  have hdirect := hallowed.2 rule hrule
  simp only [hresolves, Bool.not_true, Bool.false_or, Config.is_direct, Option.any_eq_true] at hdirect
  obtain ⟨proxy, hproxy, hkind⟩ := hdirect
  exact ⟨proxy, hproxy, beq_iff_eq.1 hkind⟩

private theorem passed_of_looked_up {answer : Answer} {rules : List Rule} (hdns : query.dns = .ok answer)
    (hlooked : (query.passed rules).lookups ≠ 0) : (query.passed rules).resolved = some answer := by
  unfold Query.passed at hlooked ⊢
  simp only [hdns] at hlooked ⊢
  split at hlooked
  · rename_i hcond
    rw [if_pos hcond]
  · simp at hlooked

/-- No looked-up route bypasses an address rule. A route to an address goes to one of the answer that
    the matched rule holds for, and no earlier address rule holds for any address of the answer. A route
    that keeps the name is a TCP one to a remote proxy, past direct address rules only. -/
theorem route_inner_no_bypass {crates : Crates} {source : String} {assets : Assets} {cfg : Config}
    (hparse : Config.parse_with_assets crates source assets = .ok cfg) (calls : List SelectionCall) {query : Query}
    {allowed : Bool} {answer : Answer} {route : Route} (hdomain : query.literal_ip = none)
    (hdns : query.dns = .ok answer)
    (hroute : ((cfg.after calls).route_inner crates query allowed).1 = .ok route)
    (hlooked : ((cfg.after calls).route_inner crates query allowed).2 ≠ 0) :
    (∀ ip, net.parse_ip route.target.host = some ip →
      ip ∈ answer.addresses ∧
      (∃ rule, cfg.rules[route.rule_index]? = some rule ∧
        (rule.matcher.resolves = true → rule.matcher.holds crates ip = true)) ∧
      ∀ index < route.rule_index, ∀ rule : Rule, cfg.rules[index]? = some rule → rule.matcher.resolves = true →
        ∀ address ∈ answer.addresses, rule.matcher.holds crates address = false) ∧
    (net.parse_ip route.target.host = none →
      route.target = query.target ∧ allowed = true ∧ route.proxy.kind.is_remote = true ∧
      cfg.proxies[route.leaf_index]? = some route.proxy ∧
      ∀ index ≤ route.rule_index, ∀ rule : Rule, cfg.rules[index]? = some rule → rule.matcher.resolves = true →
        ∃ proxy, cfg.proxies[rule.proxy]? = some proxy ∧ proxy.kind = .Direct) := by
  have hcfg := (Config.wellFormed_of_parse hparse).after calls
  obtain ⟨selections, hafter⟩ := cfg.after_eq calls
  have hsame : (cfg.after calls).rules = cfg.rules := by
    rw [hafter]
  have hproxies : (cfg.after calls).proxies = cfg.proxies := by
    rw [hafter]
  rw [← hsame, ← hproxies]
  generalize cfg.after calls = cfg at hcfg hroute hlooked
  have haddresses : query.addresses = answer.addresses := by
    simp [Query.addresses, hdns]
  have hending := ending_of_route_inner cfg crates query allowed
  generalize cfg.route_inner crates query allowed = run at hending hroute hlooked
  cases hending with
  | exhausted => cases hroute
  | failed => cases hroute
  | matched hrules hfront hmatches hpins =>
    rename_i front back rule pinned
    have hmem : rule ∈ cfg.rules := by
      simp [hrules]
    obtain ⟨found, hfound, hindex, hleaf, hproxy, hdial⟩ := hcfg.finish_ok hmem query.target front.length
      (cfg.allowed_after allowed (front ++ [rule])) pinned (query.passed (front ++ [rule])).resolved
    obtain rfl := Except.ok.inj (hfound.symm.trans hroute)
    rw [passed_of_looked_up hdns hlooked] at hdial
    have hget : cfg.rules[found.rule_index]? = some rule := by
      rw [hindex, hrules, get_middle]
    have hearlier : ∀ index < found.rule_index, ∀ other : Rule, cfg.rules[index]? = some other →
        other.matcher.resolves = true → ∀ address ∈ answer.addresses, other.matcher.holds crates address = false := by
      intro index hlt other hother hresolves address haddress
      rw [hrules] at hother
      by_contra hholds
      refine hfront other (mem_front hother (hindex ▸ hlt)) (.inl ?_)
      exact (matches_iff_of_resolves hdomain hresolves).2 ⟨address, haddresses ▸ haddress, by simpa using hholds⟩
    refine ⟨?_, ?_⟩
    · intro ip hip
      rcases parse_ip_of_dial_target hdial with ⟨pin, hpin, hparsed⟩ | ⟨-, htarget⟩
      · obtain rfl := Option.some.inj (hparsed.symm.trans hip)
        by_cases hresolves : rule.matcher.resolves = true
        · obtain ⟨held, hheld, hholds, rfl⟩ := hpins.looked hdomain hresolves
          obtain rfl := Option.some.inj hpin
          exact ⟨haddresses ▸ hheld, ⟨rule, hget, fun _ => hholds⟩, hearlier⟩
        · obtain rfl := hpins.plain fun hlookup => hresolves hlookup.2
          have hfirst : pin = answer.first := by
            rw [pinned_address_none] at hpin
            split at hpin
            · cases hpin
            · exact (Option.some.inj hpin).symm
          exact ⟨hfirst ▸ List.head_mem answer.nonempty, ⟨rule, hget, fun h => absurd h hresolves⟩, hearlier⟩
      · rw [htarget] at hip
        exact absurd (hip.symm.trans hdomain) (by simp)
    · intro hname
      rcases parse_ip_of_dial_target hdial with ⟨pin, -, hparsed⟩ | ⟨hpin, htarget⟩
      · exact absurd (hparsed.symm.trans hname) (by simp)
      · have hremote : (cfg.allowed_after allowed (front ++ [rule]) && found.proxy.kind.is_remote) = true := by
          by_contra hnot
          cases pinned with
          | some ip => simp at hpin
          | none => simp [hnot] at hpin
        rw [Bool.and_eq_true] at hremote
        have hallowed : allowed = true := by
          have := hremote.1
          simp only [Config.allowed_after, Bool.and_eq_true] at this
          exact this.1
        refine ⟨htarget, hallowed, hremote.2, hproxy, ?_⟩
        intro index hle other hother hresolves
        refine direct_of_allowed_after hremote.1 ?_ hresolves
        rw [hrules, List.append_cons] at hother
        have hlt : index < (front ++ [rule]).length := by
          rw [List.length_append, List.length_singleton]
          omega
        rw [List.getElem?_append_left hlt] at hother
        exact List.mem_of_getElem? hother

def sampleRoute : Route where
  proxy := ⟨"REJECT", .Reject, false, none⟩
  rule_index := 1
  leaf_index := 1
  target := ⟨net.IpAddr.to_string (.V4 ⟨192, 0, 2, 1⟩), 443, by decide⟩

private theorem sample_route {cfg : Config} (hparts : cfg.parts = sampleParts) :
    (cfg.after []).route_inner sampleCrates sampleQuery true = (.ok sampleRoute, 1) := by
  obtain ⟨bind_address, proxies, rules, groups, selections, mode, controller, secret, document⟩ := cfg
  simp only [Config.parts, sampleParts, Prod.mk.injEq] at hparts
  obtain ⟨rfl, rfl, rfl, rfl⟩ := hparts
  rfl

/-- In the sample, the suffix rule leads to a rejecting proxy, so the route is pinned to the address. -/
theorem route_inner_pinned_sample : ∃ cfg, Config.parse_with_assets sampleCrates sampleSource [] = .ok cfg ∧
    ((cfg.after []).route_inner sampleCrates sampleQuery true).1 = .ok sampleRoute ∧
    ∀ index < sampleRoute.rule_index, ∀ rule : Rule, cfg.rules[index]? = some rule → rule.matcher.resolves = true →
      rule.matcher.holds sampleCrates (.V4 ⟨192, 0, 2, 1⟩) = false := by
  obtain ⟨cfg, hcfg, hparts⟩ := sample_accepted
  have hrun := sample_route hparts
  obtain ⟨hpinned, -⟩ := route_inner_no_bypass hcfg [] sample_domain rfl (congrArg Prod.fst hrun)
    (by rw [hrun]; simp)
  obtain ⟨-, -, hearlier⟩ := hpinned _ (net.parse_ip_to_string _)
  refine ⟨cfg, hcfg, congrArg Prod.fst hrun, ?_⟩
  intro index hlt rule hrule hresolves
  exact hearlier index hlt rule hrule hresolves _ (List.mem_singleton_self _)

end zc.config
