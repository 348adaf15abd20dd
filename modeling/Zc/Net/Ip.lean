import Zc.Str
import Zc.Lib.Digits

/-!
# IP addresses

`std::net::IpAddr` with its `Display` and `FromStr` implementations, translated from the standard
library's formatter and recursive-descent reader.
-/

namespace zc.net

/-- The four octets of `std::net::Ipv4Addr`. -/
structure Ipv4Addr where
  a : UInt8
  b : UInt8
  c : UInt8
  d : UInt8
  deriving DecidableEq

/-- The eight segments of `std::net::Ipv6Addr`. -/
structure Ipv6Addr where
  segments : List UInt16
  length_segments : segments.length = 8
  deriving DecidableEq

inductive IpAddr where
  | V4 (ip : Ipv4Addr)
  | V6 (ip : Ipv6Addr)
  deriving DecidableEq

/-- `u32::from(Ipv4Addr)`, in network order. -/
def Ipv4Addr.toNat (ip : Ipv4Addr) : Nat :=
  ip.a.toNat * 2 ^ 24 + ip.b.toNat * 2 ^ 16 + ip.c.toNat * 2 ^ 8 + ip.d.toNat

def IpAddr.is_ipv4 : IpAddr → Bool
  | .V4 _ => true
  | .V6 _ => false

def IpAddr.is_loopback : IpAddr → Bool
  | .V4 ip => ip.a == 127
  | .V6 ip => ip.segments == [0, 0, 0, 0, 0, 0, 0, 1]

def IpAddr.is_unspecified : IpAddr → Bool
  | .V4 ip => ip == ⟨0, 0, 0, 0⟩
  | .V6 ip => ip.segments == [0, 0, 0, 0, 0, 0, 0, 0]

/-! ## Display -/

def Ipv4Addr.text (ip : Ipv4Addr) : List Char :=
  Nat.toDigits 10 ip.a.toNat ++ '.' :: (Nat.toDigits 10 ip.b.toNat ++ '.' ::
    (Nat.toDigits 10 ip.c.toNat ++ '.' :: Nat.toDigits 10 ip.d.toNat))

/-- A run of zero segments. -/
structure Span where
  start : Nat
  len : Nat

/-- One step of the search for the longest run: the longest run so far and the current one. -/
def Span.step (spans : Span × Span) (segment : UInt16 × Nat) : Span × Span :=
  if segment.1 = 0 then
    let start := if spans.2.len = 0 then segment.2 else spans.2.start
    let current : Span := ⟨start, spans.2.len + 1⟩
    (if current.len > spans.1.len then current else spans.1, current)
  else (spans.1, ⟨0, 0⟩)

/-- The first longest run of zero segments. -/
def zeroes (segments : List UInt16) : Span :=
  (segments.zipIdx.foldl Span.step (⟨0, 0⟩, ⟨0, 0⟩)).1

/-- `fmt_subslice`: segments in lower-case hexadecimal between colons. -/
def fmt_subslice (chunk : List UInt16) : List Char :=
  [':'].intercalate (chunk.map fun segment => Nat.toDigits 16 segment.toNat)

/-- The two segments that hold an embedded IPv4 address. -/
def Ipv4Addr.high (ip : Ipv4Addr) : UInt16 :=
  UInt16.ofNat (ip.a.toNat * 256 + ip.b.toNat)

def Ipv4Addr.low (ip : Ipv4Addr) : UInt16 :=
  UInt16.ofNat (ip.c.toNat * 256 + ip.d.toNat)

def Ipv4Addr.ofSegments (high low : UInt16) : Ipv4Addr :=
  ⟨UInt8.ofNat (high.toNat / 256), UInt8.ofNat (high.toNat % 256),
    UInt8.ofNat (low.toNat / 256), UInt8.ofNat (low.toNat % 256)⟩

/-- `Ipv6Addr::to_ipv4_mapped`. -/
def to_ipv4_mapped : List UInt16 → Option Ipv4Addr
  | [0, 0, 0, 0, 0, 0xffff, high, low] => some (.ofSegments high low)
  | _ => none

def Ipv6Addr.text (ip : Ipv6Addr) : List Char :=
  match to_ipv4_mapped ip.segments with
  | some ipv4 => "::ffff:".toList ++ ipv4.text
  | none =>
    let span := zeroes ip.segments
    if span.len > 1 then
      fmt_subslice (ip.segments.take span.start) ++ ':' :: ':' ::
        fmt_subslice (ip.segments.drop (span.start + span.len))
    else fmt_subslice ip.segments

def IpAddr.text : IpAddr → List Char
  | .V4 ip => ip.text
  | .V6 ip => ip.text

/-- `ToString` through `Display`. -/
def IpAddr.to_string (ip : IpAddr) : String :=
  String.ofList ip.text

/-! ## FromStr -/

/-- A reader takes what it recognises off the front of the input, or leaves the input alone. -/
abbrev Reader (α : Type) := List Char → Option (α × List Char)

def read_given_char (c : Char) : List Char → Option (List Char)
  | [] => none
  | x :: rest => if x = c then some rest else none

/-- `read_number` for a type whose values are below `bound`. -/
def read_number (radix max_digits bound : Nat) (allow_zero_lead : Bool) : Reader Nat := fun input =>
  let digits := input.takeWhile fun c => (Digits.toDigit radix c).isSome
  if digits.length > max_digits then none
  else if digits.length = 0 then none
  else if !allow_zero_lead && input.head? == some '0' && digits.length > 1 then none
  else
    let result := Digits.value radix digits
    if result < bound then some (result, input.drop digits.length) else none

def read_ipv4_addr : Reader Ipv4Addr := fun input => do
  let (a, input) ← read_number 10 3 256 false input
  let input ← read_given_char '.' input
  let (b, input) ← read_number 10 3 256 false input
  let input ← read_given_char '.' input
  let (c, input) ← read_number 10 3 256 false input
  let input ← read_given_char '.' input
  let (d, input) ← read_number 10 3 256 false input
  some (⟨UInt8.ofNat a, UInt8.ofNat b, UInt8.ofNat c, UInt8.ofNat d⟩, input)

/-- `read_separator`: every element but the first is preceded by the separator. -/
def read_separator {α : Type} (sep : Char) (first : Bool) (inner : Reader α) : Reader α := fun input =>
  if first then inner input else (read_given_char sep input).bind inner

/-- The outcome of `read_groups`: the groups read, whether they end in an IPv4 address, and the
    rest of the input. -/
structure Groups where
  groups : List UInt16
  ipv4 : Bool
  rest : List Char

/-- `read_groups` into `limit` slots. An embedded IPv4 address fills the last two of them. -/
def read_groups : (limit : Nat) → (first : Bool) → List Char → Groups
  | 0, _, input => ⟨[], false, input⟩
  | limit + 1, first, input =>
    match if limit = 0 then none else read_separator ':' first read_ipv4_addr input with
    | some (ip, rest) => ⟨[ip.high, ip.low], true, rest⟩
    | none =>
      match read_separator ':' first (read_number 16 4 65536 true) input with
      | some (group, rest) =>
        let tail := read_groups limit false rest
        ⟨UInt16.ofNat group :: tail.groups, tail.ipv4, tail.rest⟩
      | none => ⟨[], false, input⟩

theorem length_read_groups_le (limit : Nat) (first : Bool) (input : List Char) :
    (read_groups limit first input).groups.length ≤ limit := by
  induction limit generalizing first input with
  | zero => simp [read_groups]
  | succ limit ih =>
    rw [read_groups]
    split
    · rename_i hread
      have hlimit : limit ≠ 0 := by
        rintro rfl
        simp at hread
      simp only [List.length_cons, List.length_nil]
      omega
    · split
      · simpa using ih _ _
      · simp

def read_ipv6_addr : Reader Ipv6Addr := fun input =>
  let head := read_groups 8 true input
  if hhead : head.groups.length = 8 then some (⟨head.groups, hhead⟩, head.rest)
  else if head.ipv4 then none
  else
    match (read_given_char ':' head.rest).bind (read_given_char ':') with
    | none => none
    | some rest =>
      let tail := read_groups (7 - head.groups.length) true rest
      -- The double colon stands for at least one zero group.
      some (⟨head.groups ++ List.replicate (8 - head.groups.length - tail.groups.length) 0 ++ tail.groups,
        by
          have hle : head.groups.length ≤ 8 := length_read_groups_le 8 true input
          have htail : tail.groups.length ≤ 7 - head.groups.length := length_read_groups_le _ _ _
          simp only [List.length_append, List.length_replicate]
          omega⟩, tail.rest)

/-- `read_ip_addr`: the IPv6 reader only runs where the IPv4 one recognises nothing. -/
def read_ip_addr : Reader IpAddr := fun input =>
  match read_ipv4_addr input with
  | some (ip, rest) => some (.V4 ip, rest)
  | none => (read_ipv6_addr input).map fun (ip, rest) => (.V6 ip, rest)

/-- `str::parse::<IpAddr>`: the whole text must be read. -/
def parse_ip (s : String) : Option IpAddr :=
  match read_ip_addr s.toList with
  | some (ip, []) => some ip
  | _ => none

end zc.net
