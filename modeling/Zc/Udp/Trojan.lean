import Zc.Lib.Reading
import Zc.Udp.Codec

/-!
# Trojan UDP

The frames `UdpSession::send_to` puts on the stream and the reader loop of `trojan_worker`: the
address, the length of the payload, CRLF and the payload.
-/

namespace zc.udp

open outbound
open anytls (be16 ofBe16)
open runtime (ipv4_from ipv6_from port_from canonical)
open Reading (read)

structure Datagram where
  source : Target
  payload : List UInt8
  deriving DecidableEq

def address_target (address : Address) : Result Target :=
  match address.host with
  | .ip ip => Target.new ip.to_string address.port
  | .name host => Target.from_socks host address.port

/-! ## Sending -/

/-- Resolves a name, once for the target that was sent to last. -/
def resolved_target (resolve : Target → Result (List net.IpAddr)) (cache : Option (Target × Target)) (target : Target) :
    Result (Target × Option (Target × Target)) :=
  if (net.parse_ip target.host).isSome then .ok (target, cache)
  else
    match cache.filter fun entry => entry.1 = target with
    | some (_, resolved) => .ok (resolved, cache)
    | none => do
      let ips ← resolve target
      let ip ← okOr ips.head? (.panic "index out of bounds")
      let resolved ← Target.new ip.to_string target.port
      return (resolved, some (target, resolved))

def frame (address : Address) (payload : List UInt8) : List UInt8 :=
  address.write_to_buf ++ (be16 payload.length ++ ([13, 10] ++ payload))

/-- The frame of one call of `UdpSession::send_to`, and what is resolved after it. -/
def send_to (resolve : Target → Result (List net.IpAddr)) (cache : Option (Target × Target)) (payload : List UInt8)
    (target : Target) : Result (List UInt8 × Option (Target × Target)) := do
  bail_if (decide (65535 < payload.length)) "UDP datagram exceeds protocol payload limit"
  let (target, cache) ← resolved_target resolve cache target
  return (frame (destination target) payload, cache)

/-- The stream after a call for each target and payload. -/
def send_all (resolve : Target → Result (List net.IpAddr)) :
    Option (Target × Target) → List (Target × List UInt8) → Result (List UInt8)
  | _, [] => .ok []
  | cache, (target, payload) :: rest => do
    let (bytes, cache) ← send_to resolve cache payload target
    let stream ← send_all resolve cache rest
    return bytes ++ stream

/-! ## Receiving -/

def earlyEof : Error :=
  .io .UnexpectedEof "early eof"

def ofParts (host : Option Host) (port : Option UInt16) : Reading UInt8 Error Address :=
  match host, port with
  | some host, some port => .done ⟨host, port⟩
  | _, _ => .fail (.message "invalid domain name encoding")

/-- The host and the port of an address that starts with this byte. -/
def read_host : List UInt8 → Reading UInt8 Error Address
  | [1] => do
    let bytes ← read 6 earlyEof
    ofParts ((ipv4_from (bytes.take 4)).map fun ip => .ip (.V4 ip)) (port_from (bytes.drop 4))
  | [4] => do
    let bytes ← read 18 earlyEof
    ofParts ((ipv6_from (bytes.take 16)).map fun ip => .ip (.V6 ip)) (port_from (bytes.drop 16))
  | [3] => do
    let len ← read 1 earlyEof
    let bytes ← read ((len.headD 0).toNat + 2) earlyEof
    ofParts ((str.from_utf8 (bytes.take (len.headD 0).toNat)).map .name) (port_from (bytes.drop (len.headD 0).toNat))
  | _ => .fail (.message "address type not supported")

/-- `Address::read_from`. -/
def read_from : Reading UInt8 Error Address := do
  let kind ← read 1 earlyEof
  read_host kind

/-- The part of a packet behind its source. -/
def read_payload (source : Target) : Reading UInt8 Error Datagram := do
  let len ← read 2 (.context (.message "truncated Trojan UDP length") earlyEof)
  let delimiter ← read 2 (.context (.message "truncated Trojan UDP delimiter") earlyEof)
  .ofExcept (bail_if (delimiter != [13, 10]) "invalid Trojan UDP CRLF")
  let payload ← read (ofBe16 (len.headD 0) (len.getD 1 0)) (.context (.message "truncated Trojan UDP payload") earlyEof)
  return ⟨source, payload⟩

/-- A packet as the reader loop waits for it. -/
def read_packet : Reading UInt8 Error Datagram := do
  let source ← read_from.mapError fun error => .context (.message "invalid or truncated Trojan UDP address") error
  let source ← .ofExcept (withContext (.message "invalid Trojan UDP source") (address_target source))
  read_payload source

def QUEUE : Nat := 2

/-- The queue between the worker and `recv_from`, and what was taken from it. `arrivals` has every packet with
    the number of those waiting when it came. -/
structure Incoming where
  queue : List Datagram
  taken : List Datagram
  arrivals : List (Datagram × Nat)

namespace Incoming

def empty : Incoming :=
  ⟨[], [], []⟩

/-- Calls of `recv_from` that do not have to wait. -/
def recv (count : Nat) (incoming : Incoming) : Incoming :=
  { incoming with queue := incoming.queue.drop count, taken := incoming.taken ++ incoming.queue.take count }

/-- `Sender::try_send`: a packet that finds the queue full is dropped. -/
def try_send (packet : Datagram) (incoming : Incoming) : Incoming :=
  { incoming with
    queue := if incoming.queue.length < QUEUE then incoming.queue ++ [packet] else incoming.queue
    arrivals := incoming.arrivals ++ [(packet, incoming.queue.length)] }

end Incoming

/-- The reader loop. Before the next packet is offered the receiver takes some of those waiting, or it is gone and
    the loop ends without an error. -/
def reader_loop (receiver : Nat → Option Nat) : Nat → Nat → List (List UInt8) → Incoming → Option (Incoming × Option Error)
  | 0, _, _, _ => none
  | fuel + 1, turn, segments, incoming =>
    match read_packet.run segments with
    | .error error => some (incoming, some error)
    | .ok (packet, segments) =>
      match receiver turn with
      | none => some (incoming, none)
      | some count => reader_loop receiver fuel (turn + 1) segments ((incoming.recv count).try_send packet)

/-- Everything `recv_from` returns in the end: the error of the loop follows what was accepted before it. -/
def received (incoming : Incoming) (error : Option Error) : List (Result Datagram) :=
  (incoming.taken ++ incoming.queue).map .ok ++ error.toList.map .error

/-! ## Addresses -/

theorem length_octets (ip : net.Ipv6Addr) : (ip.segments.flatMap fun segment => be16 segment.toNat).length = 16 := by
  rw [List.length_flatMap]
  simp [length_be16, ip.length_segments]

theorem ipv6_from_octets (ip : net.Ipv6Addr) : ipv6_from (ip.segments.flatMap fun segment => be16 segment.toNat) = some ip := by
  rw [ipv6_from, dif_pos (length_octets ip)]
  simp only [segments_flatMap]

theorem read_from_write_to_buf {address : Address} (hname : address.host.Sendable) (rest : List UInt8) :
    read_from.onSymbols (address.write_to_buf ++ rest) = .ok (address, rest) := by
  obtain ⟨host, port⟩ := address
  match host, hname with
  | .ip (.V4 ip), _ =>
    have hbytes : Address.write_to_buf ⟨.ip (.V4 ip), port⟩ ++ rest =
        [1] ++ (([ip.a, ip.b, ip.c, ip.d] ++ be16 port.toNat) ++ rest) := rfl
    have htake : ([ip.a, ip.b, ip.c, ip.d] ++ be16 port.toNat).take 4 = [ip.a, ip.b, ip.c, ip.d] := rfl
    have hdrop : ([ip.a, ip.b, ip.c, ip.d] ++ be16 port.toNat).drop 4 = be16 port.toNat := rfl
    rw [hbytes, read_from, Reading.onSymbols_read_bind 1 rfl, read_host, Reading.onSymbols_read_bind 6 rfl, htake, hdrop,
      runtime.port_from_be16]
    rfl
  | .ip (.V6 ip), _ =>
    have hoctets := length_octets ip
    have hbytes : Address.write_to_buf ⟨.ip (.V6 ip), port⟩ ++ rest =
        [4] ++ (((ip.segments.flatMap fun segment => be16 segment.toNat) ++ be16 port.toNat) ++ rest) := by
      rw [Address.write_to_buf, List.append_assoc, List.append_assoc]
      rfl
    rw [hbytes, read_from, Reading.onSymbols_read_bind 1 rfl, read_host,
      Reading.onSymbols_read_bind 18 (by rw [List.length_append, hoctets, length_be16]), List.take_left' hoctets, List.drop_left' hoctets,
      runtime.port_from_be16, ipv6_from_octets]
    rfl
  | .name name, hname =>
    have hlen : (([UInt8.ofNat (str.len name)] : List UInt8).headD 0).toNat = str.len name := by
      rw [List.headD_cons, UInt8.toNat_ofNat']
      exact Nat.mod_eq_of_lt (Nat.lt_succ_of_le hname.2)
    have hbytes : Address.write_to_buf ⟨.name name, port⟩ ++ rest =
        [3] ++ ([UInt8.ofNat (str.len name)] ++ ((str.bytes name ++ be16 port.toNat) ++ rest)) := by
      rw [Address.write_to_buf, List.append_assoc, List.append_assoc]
      rfl
    have hutf8 : str.from_utf8 (str.bytes name) = some name := str.from_utf8_eq_some_iff.2 rfl
    rw [hbytes, read_from, Reading.onSymbols_read_bind 1 rfl, read_host, Reading.onSymbols_read_bind 1 rfl, hlen,
      Reading.onSymbols_read_bind (str.len name + 2) (by rw [List.length_append, length_bytes, length_be16]), List.take_left' (length_bytes name),
      List.drop_left' (length_bytes name), runtime.port_from_be16, hutf8]
    rfl

theorem address_target_of_sendable {address : Address} (hsendable : address.host.Sendable) (hport : address.port ≠ 0) :
    address_target address = .ok ⟨address.host.text, address.port, hport⟩ := by
  obtain ⟨host, port⟩ := address
  cases host with
  | ip ip => exact Target.new_to_string ip hport
  | name name => exact runtime.from_socks_of_sendable hsendable hport

/-! ## Packets -/

theorem read_packet_address {address : Address} (hsendable : address.host.Sendable) (hport : address.port ≠ 0) (rest : List UInt8) :
    read_packet.onSymbols (address.write_to_buf ++ rest) =
      (read_payload ⟨address.host.text, address.port, hport⟩).onSymbols rest := by
  have haddress : (read_from.mapError fun error => Error.context (.message "invalid or truncated Trojan UDP address") error).onSymbols
      (address.write_to_buf ++ rest) = .ok (address, rest) := by
    rw [Reading.onSymbols_mapError, read_from_write_to_buf hsendable]
    rfl
  rw [read_packet, Reading.onSymbols_bind_ok haddress, address_target_of_sendable hsendable hport]
  rfl

theorem read_packet_frame {address : Address} (hsendable : address.host.Sendable) (hport : address.port ≠ 0) {payload : List UInt8}
    (hpayload : payload.length ≤ 65535) (rest : List UInt8) :
    read_packet.onSymbols (frame address payload ++ rest) =
      .ok (⟨⟨address.host.text, address.port, hport⟩, payload⟩, rest) := by
  have hlen : ofBe16 ((be16 payload.length).headD 0) ((be16 payload.length).getD 1 0) = payload.length :=
    anytls.ofBe16_be16 (by omega)
  rw [frame, List.append_assoc, read_packet_address hsendable hport, read_payload, List.append_assoc,
    Reading.onSymbols_read_bind 2 rfl, List.append_assoc, Reading.onSymbols_read_bind 2 rfl, Reading.onSymbols_bind_ok rfl, hlen,
    Reading.onSymbols_read_bind payload.length rfl]
  rfl

/-- Another delimiter ends the reading, whatever follows. -/
theorem read_packet_delimiter {address : Address} (hsendable : address.host.Sendable) (hport : address.port ≠ 0)
    {length delimiter : List UInt8} (hlength : length.length = 2) (htwo : delimiter.length = 2) (hne : delimiter ≠ [13, 10])
    (later : List UInt8) : read_packet.onSymbols (address.write_to_buf ++ (length ++ (delimiter ++ later))) =
      .error (.message "invalid Trojan UDP CRLF") := by
  rw [read_packet_address hsendable hport, read_payload, Reading.onSymbols_read_bind 2 hlength, Reading.onSymbols_read_bind 2 htwo,
    bail_if, if_pos (bne_iff_ne.2 hne)]
  rfl

/-! ## The queue -/

namespace Incoming

/-- Those that came while there was room are the ones that are received. -/
structure Sound (incoming : Incoming) : Prop where
  bounded : incoming.queue.length ≤ QUEUE
  arrived : ∀ arrival ∈ incoming.arrivals, arrival.2 ≤ QUEUE
  accepted : incoming.taken ++ incoming.queue = (incoming.arrivals.filter fun arrival => arrival.2 < QUEUE).map Prod.fst

theorem Sound.recv {incoming : Incoming} (hsound : incoming.Sound) (count : Nat) : (incoming.recv count).Sound where
  bounded := by
    have := hsound.bounded
    show (incoming.queue.drop count).length ≤ QUEUE
    rw [List.length_drop]
    omega
  arrived := hsound.arrived
  accepted := by
    show incoming.taken ++ incoming.queue.take count ++ incoming.queue.drop count = _
    rw [List.append_assoc, List.take_append_drop]
    exact hsound.accepted

theorem Sound.try_send {incoming : Incoming} (hsound : incoming.Sound) (packet : Datagram) : (incoming.try_send packet).Sound := by
  have hbounded := hsound.bounded
  have harrived : ∀ arrival ∈ incoming.arrivals ++ [(packet, incoming.queue.length)], arrival.2 ≤ QUEUE := by
    intro arrival hmem
    rcases List.mem_append.1 hmem with hmem | hmem
    · exact hsound.arrived arrival hmem
    · obtain rfl := List.mem_singleton.1 hmem
      exact hbounded
  unfold Incoming.try_send
  by_cases hroom : incoming.queue.length < QUEUE
  · rw [if_pos hroom]
    refine ⟨?_, harrived, ?_⟩
    · rw [List.length_append]
      exact hroom
    · rw [List.filter_append, List.map_append, ← hsound.accepted, ← List.append_assoc]
      simp [hroom]
  · rw [if_neg hroom]
    refine ⟨hbounded, harrived, ?_⟩
    rw [List.filter_append, List.map_append, ← hsound.accepted]
    simp [hroom]

end Incoming

/-! ## The loop -/

/-- The datagram an address and a payload stand for. -/
def Frames (sent : List (Address × List UInt8)) (packets : List Datagram) : Prop :=
  List.Forall₂ (fun pair packet => pair.1.host.Sendable ∧ pair.2.length ≤ 65535 ∧ packet.payload = pair.2 ∧
    packet.source.host = pair.1.host.text ∧ packet.source.port = pair.1.port) sent packets

theorem reader_loop_frames {receiver : Nat → Option Nat} (hreceiver : ∀ turn, receiver turn ≠ none) {tail : List UInt8} {error : Error}
    (htail : read_packet.onSymbols tail = .error error) {sent : List (Address × List UInt8)} {packets : List Datagram}
    (hframes : Frames sent packets) {fuel turn : Nat} (hfuel : sent.length < fuel) {segments : List (List UInt8)}
    (hstream : segments.flatten = (sent.flatMap fun pair => frame pair.1 pair.2) ++ tail) {incoming : Incoming} (hsound : incoming.Sound) :
    ∃ last, reader_loop receiver fuel turn segments incoming = some (last, some error) ∧ last.Sound ∧
      last.arrivals.map Prod.fst = incoming.arrivals.map Prod.fst ++ packets := by
  induction hframes generalizing fuel turn segments incoming with
  | nil =>
    obtain ⟨fuel, rfl⟩ := Nat.exists_eq_succ_of_ne_zero (Nat.ne_zero_of_lt hfuel)
    rw [reader_loop, Reading.run_error_of_onSymbols (by rw [hstream]; exact htail)]
    exact ⟨incoming, rfl, hsound, by simp⟩
  | @cons pair packet sent packets hpair hframes ih =>
    obtain ⟨fuel, rfl⟩ := Nat.exists_eq_succ_of_ne_zero (Nat.ne_zero_of_lt hfuel)
    obtain ⟨⟨host, port⟩, payload⟩ := pair
    obtain ⟨⟨text, port', hport⟩, payload'⟩ := packet
    simp only at hpair
    obtain ⟨hsendable, hlimit, rfl, rfl, rfl⟩ := hpair
    have hread : read_packet.onSymbols segments.flatten = .ok (⟨⟨host.text, port', hport⟩, payload'⟩,
        (sent.flatMap fun pair => frame pair.1 pair.2) ++ tail) := by
      rw [hstream, List.flatMap_cons, List.append_assoc]
      exact read_packet_frame hsendable hport hlimit _
    obtain ⟨left, hrun, hleft⟩ := Reading.run_of_onSymbols hread
    obtain ⟨count, hcount⟩ := Option.ne_none_iff_exists'.1 (hreceiver turn)
    rw [reader_loop, hrun]
    simp only [hcount]
    obtain ⟨last, hlast, hsound', harrivals⟩ := @ih fuel (turn + 1) (Nat.lt_of_succ_lt_succ hfuel) left hleft _
      ((hsound.recv count).try_send ⟨⟨host.text, port', hport⟩, payload'⟩)
    refine ⟨last, hlast, hsound', ?_⟩
    rw [harrivals]
    simp [Incoming.try_send, Incoming.recv]

theorem length_le_length_frames (sent : List (Address × List UInt8)) :
    sent.length ≤ (sent.flatMap fun pair => frame pair.1 pair.2).length := by
  induction sent with
  | nil => exact Nat.le_refl 0
  | cons pair sent ih =>
    have hframe : 2 ≤ (frame pair.1 pair.2).length := by
      simp only [frame, List.length_append, length_be16]
      omega
    rw [List.flatMap_cons, List.length_append, List.length_cons]
    omega

/-! ## Streams of `send_to` -/

theorem resolved_target_ip {resolve : Target → Result (List net.IpAddr)} {cache : Option (Target × Target)} {target : Target}
    (hip : (net.parse_ip target.host).isSome = true) : resolved_target resolve cache target = .ok (target, cache) := by
  rw [resolved_target, if_pos hip]

theorem send_all_ips {resolve : Target → Result (List net.IpAddr)} {cache : Option (Target × Target)} {sent : List (Target × List UInt8)}
    (hsent : ∀ pair ∈ sent, (net.parse_ip pair.1.host).isSome = true ∧ pair.2.length ≤ 65535) :
    send_all resolve cache sent = .ok (sent.flatMap fun pair => frame (destination pair.1) pair.2) := by
  induction sent with
  | nil => rfl
  | cons pair sent ih =>
    obtain ⟨target, payload⟩ := pair
    obtain ⟨hip, hlimit⟩ := hsent _ List.mem_cons_self
    have hsend : send_to resolve cache payload target = .ok (frame (destination target) payload, cache) := by
      simp only [send_to, bind_eq_ok_iff, bail_if_eq_ok_iff, decide_eq_false_iff_not]
      exact ⟨(), by simpa using hlimit, _, resolved_target_ip hip, rfl⟩
    simp only [send_all, bind_eq_ok_iff]
    exact ⟨_, hsend, _, ih fun pair hmem => hsent pair (List.mem_cons_of_mem _ hmem), rfl⟩

/-- What cannot be read as a packet: a frame that breaks off, or one with another delimiter and anything behind it. -/
inductive Broken : List UInt8 → Prop where
  | truncated {address : Address} {payload front back : List UInt8} : address.host.Sendable → address.port ≠ 0 →
      payload.length ≤ 65535 → front ++ back = frame address payload → back ≠ [] → Broken front
  | delimiter {address : Address} {length delimiter : List UInt8} (later : List UInt8) : address.host.Sendable → address.port ≠ 0 →
      length.length = 2 → delimiter.length = 2 → delimiter ≠ [13, 10] →
      Broken (address.write_to_buf ++ (length ++ (delimiter ++ later)))

theorem Broken.read_packet {tail : List UInt8} (hbroken : Broken tail) : ∃ error, read_packet.onSymbols tail = .error error := by
  cases hbroken with
  | truncated hsendable hport hpayload hframe hback =>
    have hread := read_packet_frame hsendable hport hpayload []
    rw [List.append_nil, ← hframe] at hread
    exact Reading.onSymbols_front hread hback
  | delimiter later hsendable hport hlength htwo hne =>
    exact ⟨_, read_packet_delimiter hsendable hport hlength htwo hne later⟩

/-- What `send_to` puts on the stream for addresses comes out of the reader loop in the same order, however the stream is cut into
    reads, a datagram being dropped only when it finds the queue full. What is broken behind it ends the loop with an error. -/
theorem trojan_self_delimiting (resolve : Target → Result (List net.IpAddr)) (cache : Option (Target × Target))
    (sent : List (Target × List UInt8)) (hsent : ∀ pair ∈ sent, (net.parse_ip pair.1.host).isSome = true ∧ pair.2.length ≤ 65535) :
    ∃ stream, send_all resolve cache sent = .ok stream ∧ ∀ (tail : List UInt8), Broken tail →
      ∀ segments : List (List UInt8), segments.flatten = stream ++ tail → ∀ fuel, stream.length < fuel →
      ∀ receiver : Nat → Option Nat, (∀ turn, receiver turn ≠ none) →
      ∃ incoming error, reader_loop receiver fuel 0 segments .empty = some (incoming, some error) ∧
        incoming.arrivals.map Prod.fst = (sent.map fun pair => ⟨canonical pair.1, pair.2⟩) ∧
        (∀ arrival ∈ incoming.arrivals, arrival.2 ≤ QUEUE) ∧
        received incoming (some error) =
          ((incoming.arrivals.filter fun arrival => arrival.2 < QUEUE).map fun arrival => .ok arrival.1) ++ [.error error] := by
  refine ⟨_, send_all_ips hsent, fun tail hbroken segments hstream fuel hfuel receiver hreceiver => ?_⟩
  obtain ⟨error, herror⟩ := hbroken.read_packet
  have hframes : Frames (sent.map fun pair => (destination pair.1, pair.2)) (sent.map fun pair => ⟨canonical pair.1, pair.2⟩) := by
    rw [Frames, List.forall₂_map_left_iff, List.forall₂_map_right_iff, List.forall₂_same]
    intro pair hmem
    obtain ⟨hip, hlimit⟩ := hsent pair hmem
    exact ⟨runtime.sendable_host_of (.inl hip), hlimit, rfl, rfl, rfl⟩
  have hmap : (sent.flatMap fun pair => frame (destination pair.1) pair.2) =
      (sent.map fun pair => (destination pair.1, pair.2)).flatMap fun pair => frame pair.1 pair.2 := by
    rw [List.flatMap_map]
  have hcount := length_le_length_frames (sent.map fun pair => (destination pair.1, pair.2))
  rw [hmap] at hstream hfuel
  have hempty : Incoming.empty.Sound := ⟨Nat.zero_le _, nofun, rfl⟩
  obtain ⟨last, hloop, hsound, harrivals⟩ := reader_loop_frames hreceiver herror hframes (Nat.lt_of_le_of_lt hcount hfuel) hstream hempty
  refine ⟨last, error, hloop, harrivals, hsound.arrived, ?_⟩
  rw [received, hsound.accepted, List.map_map]
  rfl

/-- A datagram of three bytes in two reads, the second of which brings the start of another. -/
theorem cutFrame_received : ∃ incoming error, reader_loop (fun _ => some 2) 100 0
      [[1, 127, 0, 0, 1, 0, 53, 0], [3, 13, 10, 13, 10, 1, 1, 127]] .empty = some (incoming, some error) ∧
    incoming.arrivals.map Prod.fst = [⟨canonical ⟨"127.0.0.1", 53, by decide⟩, [13, 10, 1]⟩] := by
  have hsent : ∀ pair ∈ [((⟨"127.0.0.1", 53, by decide⟩, [13, 10, 1]) : Target × List UInt8)],
      (net.parse_ip pair.1.host).isSome = true ∧ pair.2.length ≤ 65535 := by
    intro pair hmem
    obtain rfl := List.mem_singleton.1 hmem
    exact ⟨by decide +kernel, by decide⟩
  obtain ⟨stream, hstream, hloop⟩ := trojan_self_delimiting (fun _ => .ok []) none _ hsent
  have hbytes : stream = [1, 127, 0, 0, 1, 0, 53, 0, 3, 13, 10, 13, 10, 1] := by
    have heval : send_all (fun _ => .ok []) none [(⟨"127.0.0.1", 53, by decide⟩, [13, 10, 1])] =
      .ok [1, 127, 0, 0, 1, 0, 53, 0, 3, 13, 10, 13, 10, 1] := by decide +kernel
    rw [heval] at hstream
    exact (Except.ok.inj hstream).symm
  subst hbytes
  have hsplit : [1, 127] ++ [0, 0, 1, 0, 53, 0, 0, 13, 10] = frame ⟨.ip (.V4 ⟨127, 0, 0, 1⟩), 53⟩ [] := rfl
  have hsendable : (Address.mk (.ip (.V4 ⟨127, 0, 0, 1⟩)) 53).host.Sendable := trivial
  have hbroken : Broken [1, 127] := .truncated hsendable (by decide) (Nat.zero_le _) hsplit (by decide)
  obtain ⟨incoming, error, hrun, harrivals, -⟩ := hloop [1, 127] hbroken
    [[1, 127, 0, 0, 1, 0, 53, 0], [3, 13, 10, 13, 10, 1, 1, 127]] rfl 100 (by decide) (fun _ => some 2) nofun
  exact ⟨incoming, error, hrun, harrivals⟩

end zc.udp
