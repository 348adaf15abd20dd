import Zc.Config.Route
import Zc.Lib.Labels

/-!
# What a rule matches

The declarative meaning of the matchers for a query whose target has a given list of addresses, and
one turn of the routing loop in those terms.
-/

namespace zc.config

/-- The dot-separated labels of a name. -/
def labels (name : String) : List (List Char) :=
  name.toList.splitOn '.'

/-- A suffix rule matches whole labels only. -/
theorem suffix_matches_iff {suffix domain : String} :
    suffix_matches suffix domain = true ↔ labels suffix <:+ labels domain := by
  unfold suffix_matches labels
  rw [Labels.splitOn_isSuffix_iff, Bool.or_eq_true, beq_iff_eq, String.toList_inj]
  refine or_congr_right ?_
  rw [Option.any_eq_true]
  constructor
  · rintro ⟨front, hstrip, hdot⟩
    unfold str.stripSuffix at hstrip
    split at hstrip
    · rename_i htail
      obtain rfl := Option.some.inj hstrip
      obtain ⟨head, hhead⟩ := List.isSuffixOf_iff_suffix.1 htail
      obtain ⟨label, hlabel⟩ := List.isSuffixOf_iff_suffix.1 hdot
      rw [← hhead, List.length_append, Nat.add_sub_cancel, List.take_left] at hlabel
      simp only [String.toList_ofList] at hlabel
      refine ⟨label, ?_⟩
      rw [← hhead, ← hlabel]
      simp
    · cases hstrip
  · rintro ⟨front, hfront⟩
    have htail : str.endsWith domain suffix = true :=
      List.isSuffixOf_iff_suffix.2 ⟨front ++ ['.'], by simp [hfront]⟩
    refine ⟨String.ofList (front ++ ['.']), ?_, ?_⟩
    · unfold str.stripSuffix
      rw [if_pos htail, hfront, List.append_cons, List.length_append, Nat.add_sub_cancel, List.take_left]
    · exact List.isSuffixOf_iff_suffix.2 ⟨front, by simp⟩

def Query.name (query : Query) : String :=
  canonical_domain query.target.host

/-- The addresses of the outcome of a lookup: none where it fails. -/
def Query.addresses (query : Query) : List net.IpAddr :=
  match query.dns with
  | .ok answer => answer.addresses
  | .error _ => []

/-- A literal address is checked itself; a domain through its addresses, unless they are not to be
    looked up. -/
def AddressMatches (query : Query) (addresses : List net.IpAddr) (holds : net.IpAddr → Bool) (no_resolve : Bool) :
    Prop :=
  match query.literal_ip with
  | some ip => holds ip = true
  | none => no_resolve = false ∧ ∃ ip ∈ addresses, holds ip = true

/-- Whether a rule matches a target that has these addresses. -/
def Matches (crates : Crates) (query : Query) (addresses : List net.IpAddr) : Matcher → Prop
  | .Match => True
  | .SourceIp network => ∃ ip, query.context.source_ip = some ip ∧ crates.contains network ip = true
  | .SourcePort first last => ∃ port, query.context.source_port = some port ∧ first ≤ port ∧ port ≤ last
  | .ProcessName name => query.context.process_name = some name
  | .DestinationPort first last => first ≤ query.target.port ∧ query.target.port ≤ last
  | .GeoIp country no_resolve => AddressMatches query addresses (geoip_holds country) no_resolve
  | .Ip network no_resolve => AddressMatches query addresses (crates.contains network) no_resolve
  | .Domain expected => query.literal_ip = none ∧ query.name = expected
  | .DomainSuffix suffix => query.literal_ip = none ∧ labels suffix <:+ labels query.name
  | .DomainKeyword keyword => query.literal_ip = none ∧ keyword.toList <:+: query.name.toList

/-- What an address matcher asks of an address. -/
def Matcher.holds (crates : Crates) : Matcher → net.IpAddr → Bool
  | .Ip network _ => crates.contains network
  | .GeoIp country _ => geoip_holds country
  | _ => fun _ => false

/-- A domain matches a resolving rule exactly when one of its addresses does. -/
theorem matches_iff_of_resolves {crates : Crates} {query : Query} {addresses : List net.IpAddr} {matcher : Matcher}
    (hdomain : query.literal_ip = none) (hresolves : matcher.resolves = true) :
    Matches crates query addresses matcher ↔ ∃ ip ∈ addresses, matcher.holds crates ip = true := by
  cases matcher <;> simp_all [Matcher.resolves, Matches, AddressMatches, Matcher.holds]

/-- What matching one rule can come to. -/
inductive Outcome (crates : Crates) (query : Query) (matcher : Matcher) (resolution : Resolution) :
    Result (Bool × Option net.IpAddr) × Resolution → Prop where
  | failed {error : Error} (hdomain : query.literal_ip = none) (hresolves : matcher.resolves = true)
      (hdns : query.dns = .error error) :
      Outcome crates query matcher resolution (.error error, ⟨none, resolution.lookups + 1⟩)
  | looked {answer : Answer} {lookups : Nat} (hdomain : query.literal_ip = none)
      (hresolves : matcher.resolves = true) (hdns : query.dns = .ok answer)
      (hlookups : lookups = if resolution.resolved.isSome then resolution.lookups else resolution.lookups + 1) :
      Outcome crates query matcher resolution
        (.ok ((answer.addresses.find? (matcher.holds crates)).isSome, answer.addresses.find? (matcher.holds crates)),
          ⟨some answer, lookups⟩)
  | plain {matched : Bool} (hplain : ¬ (query.literal_ip = none ∧ matcher.resolves = true))
      (hmatched : matched = true ↔ Matches crates query query.addresses matcher) :
      Outcome crates query matcher resolution (.ok (matched, none), resolution)

/-- Addresses that are known come from the query's own lookup. -/
def Resolution.Known (query : Query) (resolution : Resolution) : Prop :=
  ∀ answer, resolution.resolved = some answer → query.dns = .ok answer

private theorem outcome_of_address {crates : Crates} {query : Query} {matcher : Matcher} {resolution : Resolution}
    {no_resolve : Bool} (hknown : resolution.Known query) (hresolves : matcher.resolves = !no_resolve)
    (hmatches : ∀ addresses, Matches crates query addresses matcher ↔
      AddressMatches query addresses (matcher.holds crates) no_resolve) :
    Outcome crates query matcher resolution (match_address query (matcher.holds crates) no_resolve resolution) := by
  unfold match_address
  cases hliteral : query.literal_ip with
  | some ip =>
    refine .plain (by simp [hliteral]) ?_
    rw [hmatches, AddressMatches, hliteral]
  | none =>
    cases no_resolve with
    | true =>
      refine .plain (by simp [hresolves]) ?_
      rw [hmatches, AddressMatches, hliteral]
      simp
    | false =>
      simp only [Bool.false_eq_true, if_false]
      unfold Resolution.lookup
      cases hresolved : resolution.resolved with
      | some answer =>
        obtain ⟨resolved, lookups⟩ := resolution
        simp only at hresolved
        subst hresolved
        exact .looked hliteral (by simp [hresolves]) (hknown answer rfl) (by simp)
      | none =>
        cases hdns : query.dns with
        | ok answer => exact .looked hliteral (by simp [hresolves]) hdns (by simp [hresolved])
        | error error => exact .failed hliteral (by simp [hresolves]) hdns

theorem outcome_of_match_rule (crates : Crates) {query : Query} (matcher : Matcher) {resolution : Resolution}
    (hknown : resolution.Known query) :
    Outcome crates query matcher resolution (match_rule crates query matcher resolution) := by
  cases matcher with
  | GeoIp country no_resolve => exact outcome_of_address hknown rfl fun _ => Iff.rfl
  | Ip network no_resolve => exact outcome_of_address hknown rfl fun _ => Iff.rfl
  | Match => exact .plain (by simp [Matcher.resolves]) (by simp [Matches])
  | SourceIp network =>
    refine .plain (by simp [Matcher.resolves]) ?_
    simp [Matches, Option.any_eq_true]
  | SourcePort first last =>
    refine .plain (by simp [Matcher.resolves]) ?_
    simp [Matches, Option.any_eq_true]
  | ProcessName name =>
    refine .plain (by simp [Matcher.resolves]) ?_
    simp [Matches, Option.any_eq_true]
  | DestinationPort first last =>
    refine .plain (by simp [Matcher.resolves]) ?_
    simp [Matches]
  | Domain expected =>
    refine .plain (by simp [Matcher.resolves]) ?_
    cases hliteral : query.literal_ip <;> simp [Matches, Query.domain, Query.name, hliteral]
  | DomainSuffix suffix =>
    refine .plain (by simp [Matcher.resolves]) ?_
    cases hliteral : query.literal_ip <;>
      simp [Matches, Query.domain, Query.name, hliteral, suffix_matches_iff]
  | DomainKeyword keyword =>
    refine .plain (by simp [Matcher.resolves]) ?_
    cases hliteral : query.literal_ip <;>
      simp [Matches, Query.domain, Query.name, hliteral, str.contains]

end zc.config
