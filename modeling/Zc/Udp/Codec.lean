import Zc.Connection.Texts
import Zc.Udp.Address

/-!
# Datagrams of a SOCKS5 association

`udp_request` and `udp_response` of `runtime.rs`: three zero bytes, the address and the payload.
-/

namespace zc.runtime

open outbound
open anytls (be16 ofBe16)

def MAX_WIRE_BYTES : Nat := 65507

/-- `slice::get` with a range. -/
def slice (bytes : List UInt8) (start stop : Nat) : Option (List UInt8) :=
  if start ≤ stop ∧ stop ≤ bytes.length then some ((bytes.drop start).take (stop - start)) else none

/-- The bytes from an index on, which panics beyond the end. -/
def bytesFrom (bytes : List UInt8) (start : Nat) : Result (List UInt8) :=
  if start ≤ bytes.length then .ok (bytes.drop start) else .error (.panic "range start index out of range for slice")

/-- `<[u8; 4]>::try_from`, then `Ipv4Addr::from`. -/
def ipv4_from : List UInt8 → Option net.Ipv4Addr
  | [a, b, c, d] => some ⟨a, b, c, d⟩
  | _ => none

/-- `<[u8; 16]>::try_from`, then `Ipv6Addr::from`. -/
def ipv6_from (bytes : List UInt8) : Option net.Ipv6Addr :=
  if hlength : bytes.length = 16 then some ⟨segments bytes, length_segments hlength⟩ else none

/-- `<[u8; 2]>::try_from`, then `u16::from_be_bytes`. -/
def port_from : List UInt8 → Option UInt16
  | [high, low] => some (UInt16.ofNat (ofBe16 high low))
  | _ => none

/-- The host of a request and the index of its port. -/
def udp_host (bytes : List UInt8) : Result (String × Nat) :=
  match (bytes[3]? : Option UInt8) with
  | some 1 => do
    let octets ← okOr (slice bytes 4 8) (.message "truncated IPv4 address")
    let ip ← okOr (ipv4_from octets) (.message "could not convert slice to array")
    return (net.IpAddr.to_string (.V4 ip), 8)
  | some 4 => do
    let octets ← okOr (slice bytes 4 20) (.message "truncated IPv6 address")
    let ip ← okOr (ipv6_from octets) (.message "could not convert slice to array")
    return (net.IpAddr.to_string (.V6 ip), 20)
  | some 3 => do
    let len ← okOr bytes[4]? (.message "truncated domain length")
    let stop := 5 + len.toNat
    let name ← okOr (slice bytes 5 stop) (.message "truncated domain")
    let name ← okOr (str.from_utf8 name) (.message "invalid utf-8 sequence")
    return (name, stop)
  | _ => bail "unsupported UDP address type"

def udp_request (bytes : List UInt8) : Result (Target × List UInt8) := do
  bail_if (decide (MAX_WIRE_BYTES < bytes.length) || !(List.isPrefixOf [0, 0, 0] bytes)) "invalid SOCKS5 UDP header or fragmentation"
  let (host, stop) ← udp_host bytes
  let port ← okOr (slice bytes stop (stop + 2)) (.message "truncated port")
  let port ← okOr (port_from port) (.message "could not convert slice to array")
  let target ← Target.from_socks host port
  let payload ← bytesFrom bytes (stop + 2)
  return (target, payload)

def udp_response (source : Target) (payload : List UInt8) : Result (List UInt8) := do
  let bytes := [0, 0, 0] ++ (destination source).write_to_buf
  bail_if (decide (MAX_WIRE_BYTES < bytes.length + payload.length)) "SOCKS5 UDP response exceeds wire limit"
  return bytes ++ payload

/-! ## Ranges -/

variable {front rest : List UInt8} {start stop : Nat}

theorem slice_append (hfront : front.length = start) (hle : start ≤ stop) :
    slice (front ++ rest) start stop = if stop - start ≤ rest.length then some (rest.take (stop - start)) else none := by
  subst hfront
  rw [slice, List.drop_left, List.length_append]
  by_cases hfits : stop - front.length ≤ rest.length
  · rw [if_pos ⟨hle, by omega⟩, if_pos hfits]
  · rw [if_neg (by omega), if_neg hfits]

theorem slice_append_append {part : List UInt8} (hfront : front.length = start) (hpart : start + part.length = stop) :
    slice (front ++ (part ++ rest)) start stop = some part := by
  rw [slice_append hfront (by omega), if_pos (by rw [List.length_append]; omega)]
  have hlength : stop - start = part.length := by omega
  rw [hlength, List.take_left]

/-- A range that is there cuts the bytes in two. -/
theorem exists_of_slice {part : List UInt8} (hfront : front.length = start) (hle : start ≤ stop)
    (hslice : slice (front ++ rest) start stop = some part) :
    ∃ back, rest = part ++ back ∧ start + part.length = stop := by
  rw [slice_append hfront hle] at hslice
  split_ifs at hslice with hfits
  cases hslice
  refine ⟨rest.drop (stop - start), (List.take_append_drop _ _).symm, ?_⟩
  rw [List.length_take]
  omega

/-! ## Hosts -/

theorem getElem?_kind (hfront : front.length = 3) (kind : UInt8) (rest : List UInt8) :
    (front ++ kind :: rest)[3]? = some kind := by
  rw [List.getElem?_append_right (by omega), hfront]
  rfl

theorem udp_host_of_bytes (hfront : front.length = 3) (host : Host)
    (hname : ∀ name, host = .name name → str.len name ≤ 255) (back : List UInt8) :
    udp_host (front ++ (host.bytes ++ back)) = .ok (host.text, 3 + host.bytes.length) := by
  unfold udp_host
  match host, hname with
  | .ip (.V4 ip), _ =>
    have hslice : slice (front ++ (Host.bytes (.ip (.V4 ip)) ++ back)) 4 8 = some [ip.a, ip.b, ip.c, ip.d] := by
      have hlength : (front ++ [1]).length = 4 := by rw [List.length_append, hfront]; rfl
      have happend : front ++ (Host.bytes (.ip (.V4 ip)) ++ back) = (front ++ [1]) ++ ([ip.a, ip.b, ip.c, ip.d] ++ back) := by
        simp [Host.bytes]
      rw [happend]
      exact slice_append_append hlength rfl
    have hkind : (front ++ (Host.bytes (.ip (.V4 ip)) ++ back))[3]? = some 1 := getElem?_kind hfront 1 _
    rw [hkind, hslice]
    rfl
  | .ip (.V6 ip), _ =>
    have hoctets : (ip.segments.flatMap fun segment => be16 segment.toNat).length = 16 := by
      rw [List.length_flatMap]
      simp [length_be16, ip.length_segments]
    have hslice : slice (front ++ (Host.bytes (.ip (.V6 ip)) ++ back)) 4 20 =
        some (ip.segments.flatMap fun segment => be16 segment.toNat) := by
      have hlength : (front ++ [4]).length = 4 := by rw [List.length_append, hfront]; rfl
      have happend : front ++ (Host.bytes (.ip (.V6 ip)) ++ back) =
          (front ++ [4]) ++ ((ip.segments.flatMap fun segment => be16 segment.toNat) ++ back) := by
        simp [Host.bytes]
      rw [happend]
      exact slice_append_append hlength (by rw [hoctets])
    have hkind : (front ++ (Host.bytes (.ip (.V6 ip)) ++ back))[3]? = some 4 := getElem?_kind hfront 4 _
    have hfrom : ipv6_from (ip.segments.flatMap fun segment => be16 segment.toNat) = some ip := by
      rw [ipv6_from, dif_pos hoctets]
      simp only [segments_flatMap]
    have hstop : 3 + (Host.bytes (.ip (.V6 ip))).length = 20 := by rw [Host.bytes, List.length_cons, hoctets]
    rw [hkind, hstop]
    simp only [bind_eq_ok_iff, okOr_eq_ok_iff]
    exact ⟨_, hslice, ip, hfrom, rfl⟩
  | .name name, hname =>
    have hfits := hname name rfl
    have hlen : (UInt8.ofNat (str.len name)).toNat = str.len name := by
      rw [UInt8.toNat_ofNat']
      omega
    have hlength : (front ++ [3, UInt8.ofNat (str.len name)]).length = 5 := by rw [List.length_append, hfront]; rfl
    have happend : front ++ (Host.bytes (.name name) ++ back) =
        (front ++ [3, UInt8.ofNat (str.len name)]) ++ (str.bytes name ++ back) := by
      simp [Host.bytes]
    have hslice : slice (front ++ (Host.bytes (.name name) ++ back)) 5 (5 + str.len name) = some (str.bytes name) := by
      rw [happend]
      exact slice_append_append hlength (by rw [length_bytes])
    have hkind : (front ++ (Host.bytes (.name name) ++ back))[3]? = some 3 := getElem?_kind hfront 3 _
    have hbyte : (front ++ (Host.bytes (.name name) ++ back))[4]? = some (UInt8.ofNat (str.len name)) := by
      rw [List.getElem?_append_right (by omega), hfront]
      rfl
    have hutf8 : str.from_utf8 (str.bytes name) = some name := str.from_utf8_eq_some_iff.2 rfl
    have hstop : 3 + (Host.bytes (.name name)).length = 5 + str.len name := by
      rw [Host.bytes, List.length_cons, List.length_cons, length_bytes]
      omega
    rw [hkind, hstop]
    simp only [bind_eq_ok_iff, okOr_eq_ok_iff]
    refine ⟨_, hbyte, _, ?_, name, hutf8, ?_⟩
    · rw [hlen]
      exact hslice
    · rw [hlen]
      rfl

theorem exists_host_of_udp_host {text : String} (hfront : front.length = 3)
    (hhost : udp_host (front ++ rest) = .ok (text, stop)) :
    ∃ (host : Host) (back : List UInt8), rest = host.bytes ++ back ∧ host.text = text ∧ 3 + host.bytes.length = stop ∧
      ∀ name, host = .name name → str.len name ≤ 255 := by
  unfold udp_host at hhost
  cases rest with
  | nil =>
    rw [List.append_nil, List.getElem?_eq_none (by omega)] at hhost
    cases hhost
  | cons kind rest =>
    rw [getElem?_kind hfront] at hhost
    have happend : front ++ kind :: rest = (front ++ [kind]) ++ rest := by simp
    have hlength : (front ++ [kind]).length = 4 := by rw [List.length_append, hfront]; rfl
    rw [happend] at hhost
    split at hhost
    · next hkind =>
      cases hkind
      simp only [bind_eq_ok_iff, okOr_eq_ok_iff] at hhost
      obtain ⟨octets, hslice, ip, hip, hpair⟩ := hhost
      cases hpair
      obtain ⟨back, rfl, -⟩ := exists_of_slice hlength (by decide) hslice
      unfold ipv4_from at hip
      split at hip
      · cases hip
        exact ⟨.ip (.V4 _), back, rfl, rfl, rfl, by rintro _ ⟨⟩⟩
      · cases hip
    · next hkind =>
      cases hkind
      simp only [bind_eq_ok_iff, okOr_eq_ok_iff] at hhost
      obtain ⟨octets, hslice, ip, hip, hpair⟩ := hhost
      cases hpair
      obtain ⟨back, rfl, hoctets⟩ := exists_of_slice hlength (by decide) hslice
      rw [ipv6_from, dif_pos (by omega)] at hip
      cases hip
      have hbytes : Host.bytes (.ip (.V6 ⟨segments octets, length_segments (by omega)⟩)) = 4 :: octets :=
        congrArg (List.cons 4) (flatMap_segments (show octets.length = 2 * 8 by omega))
      refine ⟨.ip (.V6 _), back, ?_, rfl, ?_, by rintro _ ⟨⟩⟩
      · rw [hbytes]
        rfl
      · rw [hbytes, List.length_cons]
        omega
    · next hkind =>
      cases hkind
      simp only [bind_eq_ok_iff, okOr_eq_ok_iff] at hhost
      obtain ⟨len, hlen, octets, hslice, name, hname, hpair⟩ := hhost
      cases hpair
      rw [List.getElem?_append_right (by omega), hlength] at hlen
      obtain ⟨rest', rfl⟩ : ∃ rest', rest = len :: rest' := List.head?_eq_some_iff.1 (by rwa [List.head?_eq_getElem?])
      have hlength' : (front ++ [3, len]).length = 5 := by rw [List.length_append, hfront]; rfl
      have happend' : (front ++ [3]) ++ len :: rest' = (front ++ [3, len]) ++ rest' := by simp
      rw [happend'] at hslice
      obtain ⟨back, rfl, hstop⟩ := exists_of_slice hlength' (by omega) hslice
      obtain rfl := str.from_utf8_eq_some_iff.1 hname
      rw [length_bytes] at hstop
      have hfits : str.len text = len.toNat := by omega
      have hbyte : UInt8.ofNat (str.len text) = len := by rw [hfits, UInt8.ofNat_toNat]
      refine ⟨.name text, back, ?_, rfl, ?_, ?_⟩
      · rw [Host.bytes, hbyte]
        rfl
      · rw [Host.bytes, List.length_cons, List.length_cons, length_bytes]
        omega
      · rintro _ ⟨rfl⟩
        have := len.toNat_lt
        omega
    · cases hhost

variable {port : UInt16} {target : Target}

theorem Sendable.of_from_socks {host : Host} (hsocks : Target.from_socks host.text port = .ok target)
    (hname : ∀ name, host = .name name → str.len name ≤ 255) : host.Sendable := by
  cases host with
  | ip ip => trivial
  | name name =>
    have hmade : connection.Made target := ⟨_, _, .inr hsocks⟩
    refine ⟨fun hempty => ?_, hname name rfl⟩
    unfold Target.from_socks at hsocks
    split_ifs at hsocks with hport hhost
    · cases hsocks
    · cases hsocks
    · exact hhost (.inl hempty)

/-- The text of a host that can be sent is a SOCKS name. -/
theorem from_socks_of_sendable {host : Host} (hsendable : host.Sendable) (hport : port ≠ 0) :
    Target.from_socks host.text port = .ok ⟨host.text, port, hport⟩ := by
  have htext : host.text ≠ "" ∧ str.len host.text ≤ 255 := by
    cases host with
    | ip ip => exact connection.Made.host ⟨_, _, .inl (Target.new_to_string ip hport)⟩
    | name name => exact hsendable
  rw [Target.from_socks, dif_neg hport, if_neg]
  rintro (hempty | hlong)
  · exact htext.1 hempty
  · omega

theorem from_socks_eq_ok {host : String} (hsocks : Target.from_socks host port = .ok target) :
    target.host = host ∧ target.port = port := by
  unfold Target.from_socks at hsocks
  split_ifs at hsocks
  · cases hsocks
  · cases hsocks
  · cases hsocks
    exact ⟨rfl, rfl⟩

theorem port_from_eq_some {octets : List UInt8} (hport : port_from octets = some port) :
    octets.length = 2 ∧ be16 port.toNat = octets := by
  unfold port_from at hport
  split at hport
  · next high low =>
    cases hport
    have hhigh := high.toNat_lt
    have hlow := low.toNat_lt
    have hvalue : (UInt16.ofNat (ofBe16 high low)).toNat = ofBe16 high low := by
      rw [UInt16.toNat_ofNat', ofBe16]
      omega
    rw [hvalue, be16_ofBe16]
    exact ⟨rfl, rfl⟩
  · cases hport

theorem port_from_be16 (port : UInt16) : port_from (be16 port.toNat) = some port := by
  rw [be16, port_from, anytls.ofBe16_be16 port.toNat_lt, UInt16.ofNat_toNat]

theorem bytesFrom_append (hfront : front.length = start) : bytesFrom (front ++ rest) start = .ok rest := by
  subst hfront
  rw [bytesFrom, if_pos (by rw [List.length_append]; omega), List.drop_left]

/-! ## Requests -/

/-- A request is three zero bytes, an address with a host that can be sent and a port other than zero, and the payload. -/
theorem udp_request_eq_ok_iff {bytes payload : List UInt8} :
    udp_request bytes = .ok (target, payload) ↔ bytes.length ≤ MAX_WIRE_BYTES ∧ ∃ host : Host, host.Sendable ∧
      host.text = target.host ∧ bytes = [0, 0, 0] ++ (Address.write_to_buf ⟨host, target.port⟩ ++ payload) := by
  constructor
  · intro hrequest
    simp only [udp_request, bind_eq_ok_iff, bail_if_eq_ok_iff, Bool.or_eq_false_iff, okOr_eq_ok_iff, decide_eq_false_iff_not] at hrequest
    obtain ⟨-, ⟨hlimit, hzero⟩, ⟨text, stop⟩, hhost, octets, hslice, port, hport, target', htarget, rest, hrest, hpair⟩ := hrequest
    cases hpair
    rw [Bool.not_eq_false', List.isPrefixOf_iff_prefix] at hzero
    obtain ⟨tail, rfl⟩ := hzero
    obtain ⟨host, back, rfl, rfl, rfl, hname⟩ := exists_host_of_udp_host rfl hhost
    obtain ⟨htext, hnumber⟩ := from_socks_eq_ok htarget
    have hlength : ([0, 0, 0] ++ host.bytes).length = 3 + host.bytes.length := by rw [List.length_append]; rfl
    rw [← List.append_assoc] at hslice hrest
    obtain ⟨rest', rfl, -⟩ := exists_of_slice hlength (Nat.le_add_right _ _) hslice
    obtain ⟨hoctets, hbe⟩ := port_from_eq_some hport
    rw [← List.append_assoc, bytesFrom_append (by rw [List.length_append, hlength, hoctets])] at hrest
    cases hrest
    refine ⟨by omega, host, Sendable.of_from_socks htarget hname, htext.symm, ?_⟩
    rw [Address.write_to_buf, hnumber, hbe, List.append_assoc]
  · rintro ⟨hlimit, host, hsendable, htext, rfl⟩
    have hname : ∀ name, host = .name name → str.len name ≤ 255 := by
      rintro name rfl
      exact hsendable.2
    have hhost : udp_host ([0, 0, 0] ++ (host.bytes ++ (be16 target.port.toNat ++ payload))) = .ok (host.text, 3 + host.bytes.length) :=
      udp_host_of_bytes rfl host hname _
    have hlength : ([0, 0, 0] ++ host.bytes).length = 3 + host.bytes.length := by rw [List.length_append]; rfl
    have hslice : slice ([0, 0, 0] ++ (host.bytes ++ (be16 target.port.toNat ++ payload))) (3 + host.bytes.length)
        (3 + host.bytes.length + 2) = some (be16 target.port.toNat) := by
      rw [← List.append_assoc]
      exact slice_append_append hlength rfl
    have hrest : bytesFrom ([0, 0, 0] ++ (host.bytes ++ (be16 target.port.toNat ++ payload))) (3 + host.bytes.length + 2) =
        .ok payload := by
      rw [← List.append_assoc, ← List.append_assoc]
      exact bytesFrom_append (by rw [List.length_append, hlength, length_be16])
    simp only [Address.write_to_buf, List.append_assoc] at hlimit ⊢
    simp only [udp_request, bind_eq_ok_iff, bail_if_eq_ok_iff, Bool.or_eq_false_iff, okOr_eq_ok_iff, decide_eq_false_iff_not]
    refine ⟨(), ⟨by omega, rfl⟩, _, hhost, _, hslice, _, port_from_be16 target.port, target, ?_, payload, hrest, rfl⟩
    rw [from_socks_of_sendable hsendable target.port_ne_zero]
    obtain ⟨name, port, hport⟩ := target
    cases htext
    rfl

theorem noPanic_udp_host (bytes : List UInt8) : (udp_host bytes).NoPanic := by
  unfold udp_host
  split
  · exact .bind .okOr fun _ _ => .bind .okOr fun _ _ => .ok _
  · exact .bind .okOr fun _ _ => .bind .okOr fun _ _ => .ok _
  · exact .bind .okOr fun _ _ => .bind .okOr fun _ _ => .bind .okOr fun _ _ => .ok _
  · exact .bail _

theorem noPanic_from_socks (host : String) (port : UInt16) : (Target.from_socks host port).NoPanic := by
  unfold Target.from_socks
  split_ifs
  · exact .bail _
  · exact .bail _
  · exact .ok _

/-- No request reads beyond the end of the bytes. -/
theorem noPanic_udp_request (bytes : List UInt8) : (udp_request bytes).NoPanic := by
  refine .bind (.bail_if _ _) fun _ _ => .bind (noPanic_udp_host bytes) fun found _ => .bind .okOr fun octets hslice => ?_
  refine .bind .okOr fun port _ => .bind (noPanic_from_socks _ _) fun target _ => ?_
  have hbound : found.2 + 2 ≤ bytes.length := by
    rw [okOr_eq_ok_iff, slice] at hslice
    split_ifs at hslice with hbound
    exact hbound.2
  rw [bytesFrom, if_pos hbound]
  exact .ok _

/-- The target with its host in canonical form. -/
def canonical (target : Target) : Target :=
  { target with host := (host_of target.host).text }

theorem sendable_host_of
    (hmade : (net.parse_ip target.host).isSome = true ∨ target.host ≠ "" ∧ str.len target.host ≤ 255) :
    (host_of target.host).Sendable := by
  unfold host_of
  cases hparse : net.parse_ip target.host with
  | some ip => trivial
  | none =>
    rw [hparse] at hmade
    exact hmade.resolve_left nofun

/-- A response is a request with the same target and payload, and what is a request at all is said by its form. -/
theorem udp_codec : (∀ (target : Target) (payload bytes : List UInt8),
      ((net.parse_ip target.host).isSome = true ∨ target.host ≠ "" ∧ str.len target.host ≤ 255) →
      udp_response target payload = .ok bytes → udp_request bytes = .ok (canonical target, payload)) ∧
    ∀ bytes, (udp_request bytes).NoPanic ∧
      ((∃ result, udp_request bytes = .ok result) ↔ bytes.length ≤ MAX_WIRE_BYTES ∧ ∃ (address : Address) (payload : List UInt8),
        address.host.Sendable ∧ address.port ≠ 0 ∧ bytes = [0, 0, 0] ++ (address.write_to_buf ++ payload)) := by
  refine ⟨fun target payload bytes hmade hresponse => ?_, fun bytes => ⟨noPanic_udp_request bytes, ?_⟩⟩
  · simp only [udp_response, bind_eq_ok_iff, bail_if_eq_ok_iff, decide_eq_false_iff_not] at hresponse
    obtain ⟨-, hlimit, hbytes⟩ := hresponse
    cases hbytes
    refine udp_request_eq_ok_iff.2 ⟨?_, host_of target.host, sendable_host_of hmade, rfl, ?_⟩
    · rw [List.length_append]
      omega
    · rw [List.append_assoc]
      rfl
  · constructor
    · rintro ⟨⟨target, payload⟩, hrequest⟩
      obtain ⟨hlimit, host, hsendable, -, hbytes⟩ := udp_request_eq_ok_iff.1 hrequest
      exact ⟨hlimit, ⟨host, target.port⟩, payload, hsendable, target.port_ne_zero, hbytes⟩
    · rintro ⟨hlimit, ⟨host, port⟩, payload, hsendable, hport, hbytes⟩
      exact ⟨(⟨host.text, port, hport⟩, payload), udp_request_eq_ok_iff.2 ⟨hlimit, host, hsendable, rfl, hbytes⟩⟩

theorem local_name_round_trip : ∃ bytes, udp_response ⟨"localhost", 53, by decide⟩ [7] = .ok bytes ∧
    udp_request bytes = .ok (canonical ⟨"localhost", 53, by decide⟩, [7]) := by
  have hok : (udp_response ⟨"localhost", 53, by decide⟩ [7]).isOk = true := by decide +kernel
  cases hresponse : udp_response ⟨"localhost", 53, by decide⟩ [7] with
  | ok bytes => exact ⟨bytes, rfl, udp_codec.1 _ _ _ (.inr ⟨by decide, by decide⟩) hresponse⟩
  | error error =>
    rw [hresponse] at hok
    cases hok

end zc.runtime
