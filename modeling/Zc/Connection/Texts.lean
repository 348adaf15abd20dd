import Mathlib.Data.List.TakeWhile
import Zc.Connection.Registry
import Zc.Daemon.Descriptor

/-!
# The texts of a listing

Addresses and connection ids are read back as what they were written from, and the host of a
target is never empty nor longer than 255 bytes.
-/

namespace zc.connection

open config (SocketAddr)
open daemon (parse_socket_addr read_port read_socket_addr_v4 read_socket_addr_v6 read_scope_id)

/-! ## Decimal digits -/

variable {c : Char}

theorem toDigit_ten_eq_some_iff {d : Nat} :
    Digits.toDigit 10 c = some d ↔ c.isDigit = true ∧ d = c.toNat - '0'.toNat := by
  have hdigit : c.isDigit = true ↔ 48 ≤ c.toNat ∧ c.toNat ≤ 57 := by
    simp only [Char.isDigit, Bool.and_eq_true, decide_eq_true_eq, ge_iff_le, UInt32.le_iff_toNat_le]
    rfl
  have hzero : '0'.toNat = 48 := rfl
  rw [hdigit, hzero]
  unfold Digits.toDigit
  dsimp only
  split_ifs <;> simp <;> omega

variable {n : Nat}

theorem isDigit_of_mem_toDigits (hc : c ∈ Nat.toDigits 10 n) : c.isDigit = true := by
  have hdigit := @Digits.isSome_toDigit_of_mem_toDigits 10 n c (by decide) (by decide) hc
  obtain ⟨d, hd⟩ := Option.isSome_iff_exists.1 hdigit
  exact (toDigit_ten_eq_some_iff.1 hd).1

theorem decimal_toDigits (n : Nat) : str.decimal (String.ofList (Nat.toDigits 10 n)) = n := by
  have hvalue : ∀ (text : List Char) (start : Nat), (∀ c ∈ text, c.isDigit = true) →
      text.foldl (fun n c => 10 * n + (c.toNat - '0'.toNat)) start =
        text.foldl (fun n c => n * 10 + (Digits.toDigit 10 c).getD 0) start := by
    intro text
    induction text with
    | nil =>
      intro start _
      rfl
    | cons c text ih =>
      intro start hdigits
      have hc := toDigit_ten_eq_some_iff.2 ⟨hdigits c List.mem_cons_self, rfl⟩
      rw [List.foldl_cons, List.foldl_cons, ih _ fun c hc => hdigits c (List.mem_cons_of_mem _ hc), hc, Option.getD_some,
        Nat.mul_comm]
  rw [str.decimal, String.toList_ofList, hvalue _ _ fun c hc => isDigit_of_mem_toDigits hc]
  exact Digits.value_toDigits (by decide) (by decide) n

theorem decimal_concat (text : List Char) (c : Char) :
    str.decimal (String.ofList (text ++ [c])) = 10 * str.decimal (String.ofList text) + (c.toNat - '0'.toNat) := by
  simp only [str.decimal, String.toList_ofList, List.foldl_append, List.foldl_cons, List.foldl_nil]

theorem digitChar_of_isDigit (hc : c.isDigit = true) :
    c.toNat - '0'.toNat < 10 ∧ (c.toNat - '0'.toNat).digitChar = c := by
  have hbounds : 48 ≤ c.toNat ∧ c.toNat ≤ 57 := by
    simp only [Char.isDigit, Bool.and_eq_true, decide_eq_true_eq, ge_iff_le, UInt32.le_iff_toNat_le] at hc
    exact hc
  have hzero : '0'.toNat = 48 := rfl
  have hchars : ∀ k < 10, k.digitChar.toNat = 48 + k := by decide
  rw [hzero]
  refine ⟨by omega, Char.toNat_inj.1 ?_⟩
  rw [hchars _ (by omega)]
  omega

/-- Digits without a leading zero are the digits of their value. -/
theorem toDigits_decimal {text : List Char} (hdigits : ∀ c ∈ text, c.isDigit = true) (hne : text ≠ [])
    (hzero : text.head? ≠ some '0') : Nat.toDigits 10 (str.decimal (String.ofList text)) = text := by
  induction text using List.reverseRecOn with
  | nil => exact absurd rfl hne
  | append_singleton front c ih =>
    obtain ⟨hlt, hchar⟩ := digitChar_of_isDigit (hdigits c (by simp))
    rw [decimal_concat]
    by_cases hfront : front = []
    · subst hfront
      have hnone : str.decimal (String.ofList []) = 0 := rfl
      rw [hnone, Nat.mul_zero, Nat.zero_add, Nat.toDigits_of_lt_base hlt, hchar, List.nil_append]
    · have hhead : front.head? ≠ some '0' := by rwa [List.head?_append_of_ne_nil _ hfront] at hzero
      have hrest := ih (fun c hc => hdigits c (List.mem_append_left _ hc)) hfront hhead
      have hpos : 0 < str.decimal (String.ofList front) := by
        rw [Nat.pos_iff_ne_zero]
        intro hnone
        rw [hnone] at hrest
        exact hhead (hrest ▸ rfl)
      rw [← Nat.toDigits_append_toDigits (by decide) hpos hlt, hrest, Nat.toDigits_of_lt_base hlt, hchar]

/-! ## Addresses -/

theorem read_port_text (port : UInt16) :
    read_port (':' :: Nat.toDigits 10 port.toNat) = some (port, []) := by
  have hport : port.toNat < 65536 := port.toNat_lt
  have hpos : 0 < (Nat.toDigits 10 port.toNat).length := Nat.length_toDigits_pos
  have hfits : port.toNat < 10 ^ (Nat.toDigits 10 port.toNat).length :=
    (Nat.length_toDigits_le_iff (by decide) hpos).1 (Nat.le_refl _)
  have hread := @net.read_number_toDigits 10 (Nat.toDigits 10 port.toNat).length 65536 port.toNat true []
    (by decide) (by decide) hpos hport hfits nofun
  rw [List.append_nil] at hread
  simp only [read_port, net.read_given_char_cons, Option.bind_eq_bind, Option.bind_some, hread, UInt16.ofNat_toNat]
  rfl

theorem parse_socket_text (address : SocketAddr) : parse_socket_addr (socket_text address) = some address := by
  obtain ⟨ip, port⟩ := address
  cases ip with
  | V4 ip =>
    have hread : read_socket_addr_v4 (ip.text ++ ':' :: Nat.toDigits 10 port.toNat) = some (⟨.V4 ip, port⟩, []) := by
      have hip := @net.read_ipv4_addr_text ip (':' :: Nat.toDigits 10 port.toNat) (by
        rintro c ⟨⟩
        decide)
      simp only [read_socket_addr_v4, hip, Option.bind_eq_bind, Option.bind_some, read_port_text]
      rfl
    simp only [parse_socket_addr, socket_text, String.toList_ofList, hread]
    rfl
  | V6 ip =>
    have hnone : read_socket_addr_v4 ('[' :: ip.text ++ ']' :: ':' :: Nat.toDigits 10 port.toNat) = none := by
      have hip : net.read_ipv4_addr ('[' :: (ip.text ++ ']' :: ':' :: Nat.toDigits 10 port.toNat)) = none := by
        simp [net.read_ipv4_addr, net.read_number, (by decide : Digits.toDigit 10 '[' = none)]
      simp only [read_socket_addr_v4, List.cons_append, hip, Option.bind_eq_bind, Option.bind_none]
    have hdot : '.' ∉ ']' :: ':' :: Nat.toDigits 10 port.toNat := by
      simp only [List.mem_cons, not_or]
      refine ⟨by decide, by decide, fun hmem => ?_⟩
      exact absurd (isDigit_of_mem_toDigits hmem) (by decide)
    have hread : read_socket_addr_v6 ('[' :: ip.text ++ ']' :: ':' :: Nat.toDigits 10 port.toNat) = some (⟨.V6 ip, port⟩, []) := by
      have hip := net.read_ipv6_addr_text ip (.inr ⟨_, rfl⟩) hdot
      have hscope : read_scope_id (']' :: ':' :: Nat.toDigits 10 port.toNat) = ']' :: ':' :: Nat.toDigits 10 port.toNat := rfl
      simp only [read_socket_addr_v6, List.cons_append, net.read_given_char_cons, hip, hscope, Option.bind_eq_bind, Option.bind_some,
        read_port_text]
      rfl
    simp only [parse_socket_addr, socket_text, String.toList_ofList, hnone, hread]
    rfl

/-! ## Connection ids -/

theorem toDigits_ten_injective {n' : Nat} (heq : Nat.toDigits 10 n = Nat.toDigits 10 n') : n = n' := by
  rw [← decimal_toDigits n, heq, decimal_toDigits]

theorem connection_id_injective {nonce : String} {n' : Nat} (heq : connection_id nonce n = connection_id nonce n') :
    n = n' := by
  have hlist := congrArg String.toList heq
  simp only [connection_id, String.toList_append, String.toList_ofList] at hlist
  exact toDigits_ten_injective (List.append_cancel_left hlist)

theorem rsplitOnce_eq_some {s front back : String} {sep : Char} (hsplit : str.rsplitOnce s sep = some (front, back)) :
    s.toList = front.toList ++ sep :: back.toList := by
  unfold str.rsplitOnce at hsplit
  split_ifs at hsplit with hmem
  obtain ⟨rfl, rfl⟩ := Prod.mk.inj (Option.some.inj hsplit)
  rw [String.toList_ofList, String.toList_ofList]
  have hdrop : (s.toList.reverse.dropWhile (· != sep)) ≠ [] := by
    intro hnil
    rw [List.dropWhile_eq_nil_iff] at hnil
    simpa using hnil sep (by simpa using hmem)
  obtain ⟨c, rest, hrest⟩ := List.exists_cons_of_ne_nil hdrop
  have hc : c = sep := by
    have hhead := List.head?_dropWhile_not (· != sep) s.toList.reverse
    rw [hrest] at hhead
    simpa using hhead
  subst hc
  have happend : s.toList = rest.reverse ++ c :: (s.toList.reverse.takeWhile (· != c)).reverse := by
    have hlist := List.takeWhile_append_dropWhile (p := (· != c)) (l := s.toList.reverse)
    rw [hrest] at hlist
    simpa using (congrArg List.reverse hlist).symm
  have hlength : s.toList.length - (s.toList.reverse.takeWhile (· != c)).reverse.length - 1 = rest.reverse.length := by
    have hsum := congrArg List.length happend
    simp only [List.length_append, List.length_cons] at hsum
    omega
  rw [hlength]
  conv_lhs => rw [happend]
  congr 1
  conv_rhs => rw [happend]
  rw [List.take_left]
/-- A connection id is read back. -/
theorem split_connection_id {nonce : String} (hlen : str.len nonce = 32) (hhex : nonce.toList.all isHexDigit = true)
    (hpos : 0 < n) (hn : n < 2 ^ 64) : split_id (connection_id nonce n) = some (nonce, n) := by
  have hdash : ∀ c ∈ Nat.toDigits 10 n, (c != '-') = true := by
    intro c hc
    rw [bne_iff_ne]
    rintro rfl
    exact absurd (isDigit_of_mem_toDigits hc) (by decide)
  have hlist : (connection_id nonce n).toList = nonce.toList ++ '-' :: Nat.toDigits 10 n := by
    simp only [connection_id, String.toList_append, String.toList_ofList, List.append_assoc]
    rfl
  have hback : ((connection_id nonce n).toList.reverse.takeWhile (· != '-')).reverse = Nat.toDigits 10 n := by
    rw [hlist, List.reverse_append, List.reverse_cons, List.append_assoc, List.takeWhile_append_of_pos]
    · simp
    · intro c hc
      exact hdash c (List.mem_reverse.1 hc)
  have hsplit : str.rsplitOnce (connection_id nonce n) '-' = some (nonce, String.ofList (Nat.toDigits 10 n)) := by
    unfold str.rsplitOnce
    rw [hback, if_pos (by rw [hlist]; simp), hlist]
    have hlength : (nonce.toList ++ '-' :: Nat.toDigits 10 n).length - (Nat.toDigits 10 n).length - 1 = nonce.toList.length := by
      simp only [List.length_append, List.length_cons]
      omega
    simp only [hlength, List.take_left, String.ofList_toList]
  have hzero : str.startsWith (String.ofList (Nat.toDigits 10 n)) "0" = false := by
    rw [Bool.eq_false_iff]
    intro hstarts
    obtain ⟨rest, hrest⟩ := List.isPrefixOf_iff_prefix.1 hstarts
    simp only [String.toList_ofList] at hrest
    have hhead : (Nat.toDigits 10 n).head? = some '0' := by
      rw [← hrest]
      rfl
    exact hpos.ne' ((Digits.head?_toDigits_eq_zero_iff (by decide) (by decide)).1 hhead)
  have hdigits : (String.ofList (Nat.toDigits 10 n)).toList.all Char.isDigit = true := by
    rw [String.toList_ofList, List.all_eq_true]
    exact fun c hc => isDigit_of_mem_toDigits hc
  have hne : String.ofList (Nat.toDigits 10 n) ≠ "" := by
    intro heq
    have hlist := congrArg String.toList heq
    rw [String.toList_ofList] at hlist
    exact Nat.toDigits_ne_nil hlist
  unfold split_id
  rw [hsplit]
  simp only [hlen, hhex, hzero, hdigits, hne, decimal_toDigits]
  simp
  omega

/-! ## Hosts -/

variable {input rest : List Char}

theorem length_read_number {radix max_digits bound : Nat} {allow_zero_lead : Bool}
    (hread : net.read_number radix max_digits bound allow_zero_lead input = some (n, rest)) :
    input.length ≤ rest.length + max_digits := by
  unfold net.read_number at hread
  simp only [Option.ite_none_left_eq_some, Option.ite_none_right_eq_some, Option.some.injEq, Prod.mk.injEq] at hread
  obtain ⟨hmax, -, -, -, -, rfl⟩ := hread
  rw [List.length_drop]
  omega

theorem length_read_given_char (hread : net.read_given_char c input = some rest) : input.length = rest.length + 1 := by
  cases input with
  | nil => cases hread
  | cons x input =>
    rw [net.read_given_char, Option.ite_none_right_eq_some] at hread
    rw [List.length_cons, Option.some.inj hread.2]

theorem length_read_ipv4_addr {ip : net.Ipv4Addr} (hread : net.read_ipv4_addr input = some (ip, rest)) :
    input.length ≤ rest.length + 15 := by
  simp only [net.read_ipv4_addr, Option.bind_eq_bind, Option.bind_eq_some_iff] at hread
  obtain ⟨_, ha, _, hdot, _, hb, _, hdot', _, hc, _, hdot'', _, hd, hpure⟩ := hread
  obtain ⟨-, rfl⟩ := Prod.mk.inj (Option.some.inj hpure)
  have ha := length_read_number ha
  have hb := length_read_number hb
  have hc := length_read_number hc
  have hd := length_read_number hd
  have hdot := length_read_given_char hdot
  have hdot' := length_read_given_char hdot'
  have hdot'' := length_read_given_char hdot''
  omega

theorem length_read_separator {α : Type} {sep : Char} {first : Bool} {inner : net.Reader α} {value : α} {size : Nat}
    (hinner : ∀ {input : List Char}, inner input = some (value, rest) → input.length ≤ rest.length + size)
    (hread : net.read_separator sep first inner input = some (value, rest)) :
    input.length ≤ rest.length + (size + 1) := by
  unfold net.read_separator at hread
  split at hread
  · exact (hinner hread).trans (Nat.le_succ _)
  · obtain ⟨middle, hsep, hread⟩ := Option.bind_eq_some_iff.1 hread
    have hmiddle := hinner hread
    have hlength := length_read_given_char hsep
    omega

/-- A group takes at most five characters, an embedded address at most sixteen in the place of two groups. -/
theorem length_read_groups (limit : Nat) (first : Bool) (input : List Char) :
    input.length ≤ (net.read_groups limit first input).rest.length + 5 * (net.read_groups limit first input).groups.length +
      if (net.read_groups limit first input).ipv4 then 6 else 0 := by
  induction limit generalizing first input with
  | zero => simp [net.read_groups]
  | succ limit ih =>
    rw [net.read_groups]
    split
    · next ip rest hread =>
      split at hread
      · cases hread
      · have hlength := length_read_separator (fun h => length_read_ipv4_addr h) hread
        simpa using hlength
    · split
      · next group rest hread =>
        have hlength := length_read_separator (fun h => length_read_number h) hread
        have htail := ih false rest
        simp only [List.length_cons]
        omega
      · simp

theorem length_of_read_ipv6_addr {ip : net.Ipv6Addr} (hread : net.read_ipv6_addr input = some (ip, [])) :
    input.length ≤ 46 := by
  have hhead := length_read_groups 8 true input
  have hgroups := net.length_read_groups_le 8 true input
  unfold net.read_ipv6_addr at hread
  dsimp only at hread
  split_ifs at hread with hfull hipv4
  · rw [(Prod.mk.inj (Option.some.inj hread)).2] at hhead
    split_ifs at hhead <;> simp only [List.length_nil] at hhead <;> omega
  · split at hread
    · cases hread
    next rest hcolons =>
    obtain ⟨middle, hcolon, hcolon'⟩ := Option.bind_eq_some_iff.1 hcolons
    have htail := length_read_groups (7 - (net.read_groups 8 true input).groups.length) true rest
    have hslots := net.length_read_groups_le (7 - (net.read_groups 8 true input).groups.length) true rest
    rw [(Prod.mk.inj (Option.some.inj hread)).2] at htail
    have hcolon := length_read_given_char hcolon
    have hcolon' := length_read_given_char hcolon'
    rw [if_neg hipv4] at hhead
    split_ifs at htail <;> simp only [List.length_nil] at htail <;> omega

theorem length_of_parse_ip {host : String} {ip : net.IpAddr} (hparse : net.parse_ip host = some ip) :
    host.toList.length ≤ 46 := by
  unfold net.parse_ip at hparse
  split at hparse
  · next hread =>
    unfold net.read_ip_addr at hread
    split at hread
    · next hread4 =>
      obtain ⟨-, rfl⟩ := Prod.mk.inj (Option.some.inj hread)
      exact (length_read_ipv4_addr hread4).trans (by decide)
    · obtain ⟨⟨ip6, rest⟩, hread6, heq⟩ := Option.map_eq_some_iff.1 hread
      obtain ⟨-, rfl⟩ := Prod.mk.inj heq
      exact length_of_read_ipv6_addr hread6
  · cases hparse

theorem len_le_of_length {s : String} (hlength : s.toList.length ≤ n) : str.len s ≤ 4 * n := by
  have hlen := str.len_ofList_le s.toList
  rw [String.ofList_toList] at hlen
  omega

/-- The two ways to make a target. -/
def Made (target : zc.Target) : Prop :=
  ∃ host port, Target.new host port = .ok target ∨ Target.from_socks host port = .ok target

/-- A domain with or without its trailing dot. -/
theorem host_of_domain {host : String} (hne : (str.stripSuffix host ".").getD host ≠ "")
    (hlen : str.len ((str.stripSuffix host ".").getD host) ≤ 253) : host ≠ "" ∧ str.len host ≤ 255 := by
  unfold str.stripSuffix at hne hlen
  split_ifs at hne hlen with hdot
  · obtain ⟨front, hfront⟩ := List.isSuffixOf_iff_suffix.1 hdot
    have hhost : host = String.ofList front ++ "." := by
      rw [← String.toList_inj, String.toList_append, String.toList_ofList, hfront]
    have htake : host.toList.take (host.toList.length - ".".toList.length) = front := by
      rw [← hfront, List.length_append, Nat.add_sub_cancel, List.take_left]
    rw [htake, Option.getD_some] at hlen
    subst hhost
    constructor
    · intro hempty
      have hlist := congrArg String.toList hempty
      rw [String.toList_append] at hlist
      exact absurd (List.append_eq_nil_iff.1 hlist).2 (by decide)
    · have happend : str.len (String.ofList front ++ ".") = str.len (String.ofList front) + 1 := by
        rw [str.len, String.utf8ByteSize_append]
        rfl
      omega
  · exact ⟨hne, hlen.trans (by decide)⟩

theorem Made.host {target : zc.Target} (hmade : Made target) : target.host ≠ "" ∧ str.len target.host ≤ 255 := by
  obtain ⟨host, port, hnew | hsocks⟩ := hmade
  · unfold Target.new at hnew
    split_ifs at hnew with hport hinvalid
    · cases hnew
    · cases hnew
    obtain rfl := Except.ok.inj hnew
    cases hip : net.parse_ip host with
    | some ip =>
      refine ⟨?_, (len_le_of_length (length_of_parse_ip hip)).trans (by decide)⟩
      rintro rfl
      cases hip
    | none =>
      have hdomain : Target.valid_domain host = true := by
        simpa [hip] using hinvalid
      simp only [Target.valid_domain, Bool.and_eq_true, decide_eq_true_eq] at hdomain
      obtain ⟨⟨hne, hlen⟩, -⟩ := hdomain
      exact host_of_domain hne hlen
  · unfold Target.from_socks at hsocks
    split_ifs at hsocks with hport hinvalid
    · cases hsocks
    · cases hsocks
    obtain rfl := Except.ok.inj hsocks
    rw [not_or] at hinvalid
    exact ⟨hinvalid.1, Nat.le_of_not_lt hinvalid.2⟩

end zc.connection
