import Zc.Net.Ip

namespace zc.net

variable {rest : List Char}

private theorem takeWhile_append_stop {p : Char → Bool} {front : List Char} (hfront : ∀ c ∈ front, p c = true)
    (hrest : ∀ c, rest.head? = some c → p c = false) : (front ++ rest).takeWhile p = front := by
  rw [List.takeWhile_append_of_pos hfront]
  cases rest with
  | nil => simp
  | cons c rest => simp [hrest c rfl]

theorem read_given_char_cons (c : Char) (rest : List Char) : read_given_char c (c :: rest) = some rest := by
  simp [read_given_char]

/-- A numeral followed by something that is no digit is read back whole. -/
theorem read_number_toDigits {radix max_digits bound n : Nat} {allow_zero_lead : Bool} {rest : List Char}
    (hlow : 1 < radix) (hradix : radix ≤ 16) (hmax : 0 < max_digits) (hn : n < bound)
    (hdigits : n < radix ^ max_digits)
    (hrest : ∀ c, rest.head? = some c → (Digits.toDigit radix c).isSome = false) :
    read_number radix max_digits bound allow_zero_lead (Nat.toDigits radix n ++ rest) = some (n, rest) := by
  have htake := takeWhile_append_stop
    (fun c hc => Digits.isSome_toDigit_of_mem_toDigits hlow hradix (n := n) hc) hrest
  have hlen : (Nat.toDigits radix n).length ≤ max_digits := (Nat.length_toDigits_le_iff hlow hmax).2 hdigits
  have hpos : (Nat.toDigits radix n).length ≠ 0 := by
    have := Nat.length_toDigits_pos (b := radix) (n := n)
    omega
  have hzero : (Nat.toDigits radix n ++ rest).head? = some '0' → (Nat.toDigits radix n).length = 1 := by
    intro hhead
    obtain ⟨c, text, htext⟩ := List.exists_cons_of_ne_nil (Nat.toDigits_ne_nil (n := n) (b := radix))
    have hn0 : n = 0 := by
      rw [← Digits.head?_toDigits_eq_zero_iff hlow hradix, htext]
      simpa [htext] using hhead
    simp [hn0]
  unfold read_number
  simp only [htake, Digits.value_toDigits hlow hradix, List.drop_left]
  rw [if_neg (by omega), if_neg hpos, if_neg, if_pos hn]
  intro hlead
  simp only [Bool.and_eq_true, beq_iff_eq, decide_eq_true_eq] at hlead
  have := hzero hlead.1.2
  omega

private theorem toDigit_dot : (Digits.toDigit 10 '.').isSome = false := by
  decide

private theorem toDigit_colon : (Digits.toDigit 16 ':').isSome = false := by
  decide

private theorem read_octet (octet : UInt8) (hrest : ∀ c, rest.head? = some c → (Digits.toDigit 10 c).isSome = false) :
    read_number 10 3 256 false (Nat.toDigits 10 octet.toNat ++ rest) = some (octet.toNat, rest) := by
  have hoctet : octet.toNat < 256 := octet.toNat_lt
  exact read_number_toDigits (by omega) (by omega) (by omega) hoctet (by omega) hrest

theorem read_ipv4_addr_text (ip : Ipv4Addr) {rest : List Char}
    (hrest : ∀ c, rest.head? = some c → (Digits.toDigit 10 c).isSome = false) :
    read_ipv4_addr (ip.text ++ rest) = some (ip, rest) := by
  have hdot : ∀ (rest : List Char) (c : Char), ('.' :: rest).head? = some c →
      (Digits.toDigit 10 c).isSome = false := by
    intro rest c hc
    obtain rfl : '.' = c := by simpa using hc
    exact toDigit_dot
  unfold read_ipv4_addr Ipv4Addr.text
  simp only [List.append_assoc, List.cons_append, Option.bind_eq_bind, read_octet ip.a (hdot _), read_octet ip.b (hdot _),
    read_octet ip.c (hdot _), read_octet ip.d hrest, read_given_char_cons, Option.bind_some, UInt8.ofNat_toNat]

variable {input : List Char}

/-- What the IPv4 reader accepts has a dot in it. -/
theorem dot_mem_of_read_ipv4_addr {ip : Ipv4Addr} (hread : read_ipv4_addr input = some (ip, rest)) : '.' ∈ input := by
  unfold read_ipv4_addr at hread
  simp only [Option.bind_eq_bind, Option.bind_eq_some_iff] at hread
  obtain ⟨⟨a, input₁⟩, hnumber, input₂, hchar, -⟩ := hread
  have hdrop : ∃ k, input₁ = input.drop k := by
    unfold read_number at hnumber
    simp only [Option.ite_none_left_eq_some, Option.ite_none_right_eq_some, Option.some.injEq,
      Prod.mk.injEq] at hnumber
    exact ⟨_, hnumber.2.2.2.2.2.symm⟩
  obtain ⟨k, rfl⟩ := hdrop
  have hdot : '.' ∈ input.drop k := by
    cases hk : input.drop k with
    | nil => simp [hk, read_given_char] at hchar
    | cons x xs =>
      rw [hk] at hchar
      simp only [read_given_char, Option.ite_none_right_eq_some] at hchar
      simp [hchar.1]
  exact List.mem_of_mem_drop hdot

theorem read_ipv4_addr_eq_none (hdot : '.' ∉ input) : read_ipv4_addr input = none := by
  cases hread : read_ipv4_addr input with
  | none => rfl
  | some found => exact absurd (dot_mem_of_read_ipv4_addr hread) hdot

private theorem read_number_of_not_digit {radix max_digits bound : Nat} {allow_zero_lead : Bool} {c : Char}
    {rest : List Char} (hc : (Digits.toDigit radix c).isSome = false) :
    read_number radix max_digits bound allow_zero_lead (c :: rest) = none := by
  simp [read_number, hc]

private theorem read_number_nil {radix max_digits bound : Nat} {allow_zero_lead : Bool} :
    read_number radix max_digits bound allow_zero_lead [] = none := by
  simp [read_number]

variable {c : Char}

private theorem read_ipv4_addr_of_not_digit (hc : (Digits.toDigit 10 c).isSome = false) :
    read_ipv4_addr (c :: rest) = none := by
  simp [read_ipv4_addr, read_number_of_not_digit hc]

/-- The segments that follow a first one, each after its colon. -/
private def tailText (chunk : List UInt16) : List Char :=
  chunk.flatMap fun segment => ':' :: Nat.toDigits 16 segment.toNat

private theorem fmt_subslice_cons (segment : UInt16) (chunk : List UInt16) :
    fmt_subslice (segment :: chunk) = Nat.toDigits 16 segment.toNat ++ tailText chunk := by
  induction chunk generalizing segment with
  | nil => simp [fmt_subslice, tailText]
  | cons next chunk ih =>
    have hrest := ih next
    unfold fmt_subslice at hrest ⊢
    simp only [List.map_cons, List.intercalate_cons_cons] at hrest ⊢
    rw [hrest]
    simp [tailText]

private theorem dot_notMem_toDigits (n : Nat) : '.' ∉ Nat.toDigits 16 n := by
  intro hmem
  have := Digits.isSome_toDigit_of_mem_toDigits (by omega) (by omega) hmem
  exact absurd this (by decide)

private theorem dot_notMem_tailText (chunk : List UInt16) : '.' ∉ tailText chunk := by
  simp [tailText, dot_notMem_toDigits]

private theorem dot_notMem_fmt_subslice (chunk : List UInt16) : '.' ∉ fmt_subslice chunk := by
  cases chunk with
  | nil => simp [fmt_subslice]
  | cons segment chunk =>
    rw [fmt_subslice_cons, List.mem_append]
    exact not_or.2 ⟨dot_notMem_toDigits _, dot_notMem_tailText _⟩

/-- A text at which an address ends: nothing, or the bracket that closes it. -/
def Closes (rest : List Char) : Prop :=
  rest = [] ∨ ∃ after, rest = ']' :: after

/-- A text at which no further group is read: the address ends, or a double colon follows. -/
private def Stops (rest : List Char) : Prop :=
  Closes rest ∨ ∃ after, rest = ':' :: ':' :: after

theorem Closes.not_digit (hcloses : Closes rest) (hc : rest.head? = some c) : (Digits.toDigit 16 c).isSome = false := by
  rcases hcloses with rfl | ⟨after, rfl⟩
  · simp at hc
  · obtain rfl : ']' = c := by simpa using hc
    decide

private theorem Stops.not_digit (hstops : Stops rest) (hc : rest.head? = some c) :
    (Digits.toDigit 16 c).isSome = false := by
  rcases hstops with hcloses | ⟨after, rfl⟩
  · exact hcloses.not_digit hc
  · obtain rfl : ':' = c := by simpa using hc
    exact toDigit_colon

private theorem read_segment (segment : UInt16) {rest : List Char}
    (hrest : ∀ c, rest.head? = some c → (Digits.toDigit 16 c).isSome = false) :
    read_number 16 4 65536 true (Nat.toDigits 16 segment.toNat ++ rest) = some (segment.toNat, rest) := by
  have hsegment : segment.toNat < 65536 := segment.toNat_lt
  exact read_number_toDigits (by omega) (by omega) (by omega) hsegment (by omega) hrest

private theorem head_tailText_not_digit {chunk : List UInt16} {rest : List Char} (hstops : Stops rest)
    {c : Char} (hc : (tailText chunk ++ rest).head? = some c) : (Digits.toDigit 16 c).isSome = false := by
  cases chunk with
  | nil => exact hstops.not_digit (by simpa [tailText] using hc)
  | cons segment chunk =>
    obtain rfl : ':' = c := by simpa [tailText] using hc
    exact toDigit_colon

private theorem read_groups_tailText {chunk : List UInt16} {limit : Nat} (hlimit : chunk.length ≤ limit)
    (hdot : '.' ∉ rest) (hstops : Stops rest) :
    read_groups limit false (tailText chunk ++ rest) = ⟨chunk, false, rest⟩ := by
  induction chunk generalizing limit with
  | nil =>
    cases limit with
    | zero => rfl
    | succ limit =>
      rcases hstops with (rfl | ⟨after, rfl⟩) | ⟨after, rfl⟩
      · simp [read_groups, tailText, read_separator, read_given_char]
      · simp [read_groups, tailText, read_separator, read_given_char]
      · have hnone : read_ipv4_addr (':' :: after) = none := read_ipv4_addr_of_not_digit (by decide)
        simp [read_groups, tailText, read_separator, read_given_char_cons, hnone,
          read_number_of_not_digit toDigit_colon]
  | cons segment chunk ih =>
    cases limit with
    | zero => simp at hlimit
    | succ limit =>
      have hseg := read_segment segment fun c hc => @head_tailText_not_digit chunk _ hstops _ hc
      have hnone : read_ipv4_addr (Nat.toDigits 16 segment.toNat ++ (tailText chunk ++ rest)) = none := by
        apply read_ipv4_addr_eq_none
        simp [dot_notMem_toDigits, dot_notMem_tailText, hdot]
      have htext : tailText (segment :: chunk) ++ rest =
          ':' :: (Nat.toDigits 16 segment.toNat ++ (tailText chunk ++ rest)) := by
        simp [tailText]
      rw [htext, read_groups]
      simp only [read_separator, Bool.false_eq_true, if_false, read_given_char_cons, Option.bind_some, hnone,
        ite_self, hseg, ih (Nat.le_of_succ_le_succ hlimit), UInt16.ofNat_toNat]

private theorem read_groups_fmt_subslice {chunk : List UInt16} {limit : Nat} (hlimit : chunk.length ≤ limit)
    (hdot : '.' ∉ rest) (hstops : Stops rest) :
    read_groups limit true (fmt_subslice chunk ++ rest) = ⟨chunk, false, rest⟩ := by
  cases limit with
  | zero =>
    obtain rfl : chunk = [] := by simpa using hlimit
    rfl
  | succ limit =>
    cases chunk with
    | nil =>
      have hnone : read_ipv4_addr rest = none := read_ipv4_addr_eq_none hdot
      rcases hstops with (rfl | ⟨after, rfl⟩) | ⟨after, rfl⟩
      · simp [read_groups, fmt_subslice, read_separator, hnone, read_number_nil]
      · simp [read_groups, fmt_subslice, read_separator, hnone, @read_number_of_not_digit 16 _ _ _ ']' _ (by decide)]
      · simp [read_groups, fmt_subslice, read_separator, hnone, read_number_of_not_digit toDigit_colon]
    | cons segment chunk =>
      have hseg := read_segment segment fun c hc => @head_tailText_not_digit chunk _ hstops _ hc
      have hnone : read_ipv4_addr (Nat.toDigits 16 segment.toNat ++ (tailText chunk ++ rest)) = none := by
        apply read_ipv4_addr_eq_none
        simp [dot_notMem_toDigits, dot_notMem_tailText, hdot]
      rw [fmt_subslice_cons, List.append_assoc, read_groups]
      simp only [read_separator, if_true, hnone, ite_self, hseg,
        read_groups_tailText (Nat.le_of_succ_le_succ hlimit) hdot hstops, UInt16.ofNat_toNat]

private def Span.ZeroIn (segments : List UInt16) (span : Span) : Prop :=
  ∀ k, span.start ≤ k → k < span.start + span.len → segments[k]? = some 0

/-- The search keeps two runs of zeros: the longest one, and the one that ends where it stands. -/
private structure SpansAt (segments : List UInt16) (index : Nat) (spans : Span × Span) : Prop where
  longest : Span.ZeroIn segments spans.1
  current : Span.ZeroIn segments spans.2
  ends : spans.2.len ≠ 0 → spans.2.start + spans.2.len = index

private theorem SpansAt.step {segments : List UInt16} {index : Nat} {spans : Span × Span} {segment : UInt16}
    (hspans : SpansAt segments index spans) (hsegment : segments[index]? = some segment) :
    SpansAt segments (index + 1) (Span.step spans (segment, index)) := by
  obtain ⟨hlongest, hcurrent, hends⟩ := hspans
  unfold Span.step
  by_cases hzero : segment = 0
  · subst hzero
    have hgrown : Span.ZeroIn segments
        ⟨if spans.2.len = 0 then index else spans.2.start, spans.2.len + 1⟩ := by
      intro k hlo hhi
      by_cases hlen : spans.2.len = 0
      · simp only [hlen, if_true] at hlo hhi
        obtain rfl : k = index := by omega
        exact hsegment
      · simp only [hlen, if_false] at hlo hhi
        have hend := hends hlen
        by_cases hlast : k = index
        · exact hlast ▸ hsegment
        · exact hcurrent k hlo (by omega)
    simp only [if_true]
    refine ⟨?_, hgrown, ?_⟩
    · dsimp only
      split
      · exact hgrown
      · exact hlongest
    · intro _
      dsimp only
      split
      · omega
      · have := hends ‹_›
        omega
  · simp only [hzero, if_false]
    refine ⟨hlongest, ?_, ?_⟩
    · intro k hlo hhi
      dsimp only at hhi
      omega
    · intro hlen
      exact absurd rfl hlen

private theorem SpansAt.foldl {segments todo : List UInt16} {index : Nat} {spans : Span × Span}
    (hspans : SpansAt segments index spans) (htodo : segments.drop index = todo) :
    Span.ZeroIn segments ((todo.zipIdx index).foldl Span.step spans).1 := by
  induction todo generalizing index spans with
  | nil => exact hspans.longest
  | cons segment todo ih =>
    have hsegment : segments[index]? = some segment := by
      rw [← List.head?_drop, htodo, List.head?_cons]
    rw [List.zipIdx_cons, List.foldl_cons]
    refine ih (hspans.step hsegment) ?_
    rw [← List.drop_drop, htodo, List.drop_one, List.tail_cons]

theorem zeroes_zeroIn (segments : List UInt16) : Span.ZeroIn segments (zeroes segments) := by
  have hstart : SpansAt segments 0 (⟨0, 0⟩, ⟨0, 0⟩) := by
    refine ⟨?_, ?_, ?_⟩
    · intro k _ hhi
      exact absurd hhi (Nat.not_lt_zero k)
    · intro k _ hhi
      exact absurd hhi (Nat.not_lt_zero k)
    · intro hlen
      exact absurd rfl hlen
  exact hstart.foldl rfl

/-- Cutting a run of zeros out of the segments and filling it in again gives the segments back. -/
private theorem Span.ZeroIn.restore {segments : List UInt16} {span : Span} (hzero : Span.ZeroIn segments span)
    (hlen : 0 < span.len) :
    segments.take span.start ++ List.replicate span.len 0 ++ segments.drop (span.start + span.len) = segments ∧
      span.start + span.len ≤ segments.length := by
  have hlast := hzero (span.start + span.len - 1) (by omega) (by omega)
  have hbound : span.start + span.len ≤ segments.length := by
    have := (List.getElem?_eq_some_iff.1 hlast).1
    omega
  have hmid : List.replicate span.len 0 = (segments.drop span.start).take span.len := by
    apply List.ext_getElem?
    intro k
    by_cases hk : k < span.len
    · rw [List.getElem?_replicate_of_lt hk, List.getElem?_take_of_lt hk, List.getElem?_drop,
        hzero (span.start + k) (by omega) (by omega)]
    · rw [List.getElem?_eq_none (by simpa using hk), List.getElem?_eq_none]
      simp only [List.length_take, List.length_drop]
      omega
  refine ⟨?_, hbound⟩
  rw [hmid, ← List.drop_drop, List.append_assoc, List.take_append_drop, List.take_append_drop]

private theorem read_ipv6_addr_of_groups {ip : Ipv6Addr} {left : List Char} {head tail : List UInt16} {ipv4 : Bool}
    (hhead : read_groups 8 true input = ⟨head, false, ':' :: ':' :: rest⟩) (hlen : head.length < 8)
    (htail : read_groups (7 - head.length) true rest = ⟨tail, ipv4, left⟩)
    (hip : head ++ List.replicate (8 - head.length - tail.length) 0 ++ tail = ip.segments) :
    read_ipv6_addr input = some (ip, left) := by
  obtain ⟨segments, hlength⟩ := ip
  simp only at hip
  subst hip
  unfold read_ipv6_addr
  simp only [hhead, read_given_char_cons, Option.bind_some, htail, Nat.ne_of_lt hlen, dite_false,
    Bool.false_eq_true, if_false]

private theorem read_ipv6_addr_mapped {ip : Ipv6Addr} {ipv4 : Ipv4Addr}
    (hmapped : to_ipv4_mapped ip.segments = some ipv4)
    (hrest : ∀ c, rest.head? = some c → (Digits.toDigit 10 c).isSome = false) :
    read_ipv6_addr ("::ffff:".toList ++ ipv4.text ++ rest) = some (ip, rest) := by
  obtain ⟨segments, hlength⟩ := ip
  simp only at hmapped
  unfold to_ipv4_mapped at hmapped
  split at hmapped
  · rename_i high low
    simp only [Option.some.injEq] at hmapped
    subst hmapped
    have hhigh : (Ipv4Addr.ofSegments high low).high = high := by
      apply UInt16.toNat_inj.1
      have := high.toNat_lt
      simp only [Ipv4Addr.high, Ipv4Addr.ofSegments, UInt8.toNat_ofNat', UInt16.toNat_ofNat']
      omega
    have hlow : (Ipv4Addr.ofSegments high low).low = low := by
      apply UInt16.toNat_inj.1
      have := low.toNat_lt
      simp only [Ipv4Addr.low, Ipv4Addr.ofSegments, UInt8.toNat_ofNat', UInt16.toNat_ofNat']
      omega
    have hhead : read_groups 8 true (':' :: ':' :: ("ffff".toList ++ ':' :: ((Ipv4Addr.ofSegments high low).text ++ rest))) =
        ⟨[], false, ':' :: ':' :: ("ffff".toList ++ ':' :: ((Ipv4Addr.ofSegments high low).text ++ rest))⟩ := by
      simp [read_groups, read_separator, read_number_of_not_digit toDigit_colon,
        read_ipv4_addr_of_not_digit (c := ':') (by decide)]
    have hffff := @read_segment 0xffff (':' :: ((Ipv4Addr.ofSegments high low).text ++ rest)) (by
      intro c hc
      obtain rfl : ':' = c := by simpa using hc
      exact toDigit_colon)
    have htail : read_groups 7 true ("ffff".toList ++ ':' :: ((Ipv4Addr.ofSegments high low).text ++ rest)) =
        ⟨[0xffff, high, low], true, rest⟩ := by
      have hnone : read_ipv4_addr ("ffff".toList ++ ':' :: ((Ipv4Addr.ofSegments high low).text ++ rest)) = none :=
        read_ipv4_addr_of_not_digit (c := 'f') (by decide)
      have hrest : read_groups 6 false (':' :: ((Ipv4Addr.ofSegments high low).text ++ rest)) =
          ⟨[high, low], true, rest⟩ := by
        simp [read_groups, read_separator, read_given_char_cons, read_ipv4_addr_text _ hrest, hhigh, hlow]
      rw [read_groups]
      simp only [read_separator, if_true, hnone, ite_self]
      rw [show "ffff".toList = Nat.toDigits 16 (0xffff : UInt16).toNat from by decide, hffff]
      simp only [hrest]
      rfl
    have htext : "::ffff:".toList ++ (Ipv4Addr.ofSegments high low).text ++ rest =
        ':' :: ':' :: ("ffff".toList ++ ':' :: ((Ipv4Addr.ofSegments high low).text ++ rest)) := by
      rfl
    rw [htext]
    exact read_ipv6_addr_of_groups hhead (by simp) htail rfl
  · simp at hmapped

theorem read_ipv6_addr_text (ip : Ipv6Addr) (hcloses : Closes rest) (hdot : '.' ∉ rest) :
    read_ipv6_addr (ip.text ++ rest) = some (ip, rest) := by
  unfold Ipv6Addr.text
  cases hmapped : to_ipv4_mapped ip.segments with
  | some ipv4 =>
    refine read_ipv6_addr_mapped hmapped ?_
    rcases hcloses with rfl | ⟨after, rfl⟩
    · exact nofun
    · rintro c ⟨⟩
      decide
  | none =>
    simp only
    split
    · rename_i hspan
      obtain ⟨hrestore, hbound⟩ := (zeroes_zeroIn ip.segments).restore (by omega)
      have hlength := ip.length_segments
      have htake : (ip.segments.take (zeroes ip.segments).start).length = (zeroes ip.segments).start := by
        rw [List.length_take]
        omega
      have hdrop : (ip.segments.drop ((zeroes ip.segments).start + (zeroes ip.segments).len)).length =
          8 - (zeroes ip.segments).start - (zeroes ip.segments).len := by
        rw [List.length_drop]
        omega
      have hfits : (ip.segments.drop ((zeroes ip.segments).start + (zeroes ip.segments).len)).length ≤
          7 - (ip.segments.take (zeroes ip.segments).start).length := by
        omega
      rw [List.append_assoc, List.cons_append, List.cons_append]
      refine read_ipv6_addr_of_groups (read_groups_fmt_subslice (by omega) ?_ (.inr ⟨_, rfl⟩)) (by omega)
        (read_groups_fmt_subslice hfits hdot (.inl hcloses)) ?_
      · simp [dot_notMem_fmt_subslice, hdot]
      · rw [htake, hdrop]
        convert hrestore using 4
        omega
    · have hgroups := read_groups_fmt_subslice ip.length_segments.le hdot (.inl hcloses)
      unfold read_ipv6_addr
      simp [hgroups, ip.length_segments]

private theorem read_ipv4_addr_ipv6_text (ip : Ipv6Addr) : read_ipv4_addr ip.text = none := by
  unfold Ipv6Addr.text
  cases to_ipv4_mapped ip.segments with
  | some ipv4 => exact read_ipv4_addr_of_not_digit (c := ':') (by decide)
  | none =>
    apply read_ipv4_addr_eq_none
    simp only
    split <;> simp [dot_notMem_fmt_subslice]

/-- Every address is the address its text is read as. -/
theorem parse_ip_to_string (ip : IpAddr) : parse_ip ip.to_string = some ip := by
  unfold parse_ip IpAddr.to_string
  rw [String.toList_ofList]
  cases ip with
  | V4 ip =>
    have hread := @read_ipv4_addr_text ip [] nofun
    rw [List.append_nil] at hread
    simp [read_ip_addr, IpAddr.text, hread]
  | V6 ip =>
    have hread := read_ipv6_addr_text ip (.inl rfl) List.not_mem_nil
    rw [List.append_nil] at hread
    simp [read_ip_addr, IpAddr.text, read_ipv4_addr_ipv6_text, hread]

end zc.net
