import Zc.Config.Views
import Zc.Hex

/-!
# Probe tickets

`connection/probes.rs`. Every operation locks the table and first drops the tickets that have
expired; a refused operation changes nothing else. Instants are nanoseconds on one clock.
-/

namespace zc.connection

open config (Config ProxyView)

inductive ProbeError where
  | Invalid
  | Instance
  | Missing
  | Consumed
  | Target
  | Quota
  | Unavailable
  | ResponseTooLarge
  deriving DecidableEq

namespace probes

def LIMIT : Nat := 256
def RETENTION : Nat := 120 * 1000000000

/-- The connection that claimed a ticket, and the rule and the leaf of its route. -/
structure Claim where
  connection_id : String
  request_index : UInt32
  route : Option (Nat × Nat)

structure Ticket where
  reserved : Nat
  target : zc.Target
  claim : Option Claim

structure Tickets where
  /-- A `u32`. -/
  sequence : Nat
  entries : SortedMap String Ticket

def Tickets.default : Tickets :=
  ⟨0, .empty⟩

def Tickets.expire (now : Nat) (tickets : Tickets) : Tickets :=
  { tickets with entries := tickets.entries.filter fun _ ticket => now - ticket.reserved < RETENTION }

/-- A trailing dot is kept. -/
def normalized (target : zc.Target) : Except ProbeError zc.Target :=
  let host := match net.parse_ip target.host with
    | some ip => ip.to_string
    | none => str.toAsciiLowercase target.host
  match Target.new host target.port with
  | .ok target => .ok target
  | .error _ => .error .Invalid

def is_hex (s : String) : Bool :=
  str.len s == 32 && s.toList.all isHexDigit

def validate_probe_token (nonce token : String) : Except ProbeError Unit :=
  match str.splitOnce token '.' with
  | none => .error .Invalid
  | some (instance_nonce, random) =>
    if !is_hex instance_nonce || !is_hex random then .error .Invalid
    else if instance_nonce ≠ nonce then .error .Instance
    else .ok ()

/-- An operation under the lock. -/
def locked {α : Type} (now : Nat) (body : Tickets → Except ProbeError (α × Tickets)) (tickets : Tickets) :
    Except ProbeError α × Tickets :=
  match body (tickets.expire now) with
  | .ok (value, next) => (.ok value, next)
  | .error error => (.error error, tickets.expire now)

/-- 96 random bits and the issuance counter, written `{sequence:08x}`. -/
def token (nonce : String) (random : Vector UInt8 12) (sequence : Nat) : String :=
  nonce ++ "." ++ hex random.toList ++ String.ofList ((Nat.toDigits 16 sequence).leftpad 8 '0')

/-- `random` is what `getrandom::fill` gives, `reserved` the second reading of the clock. -/
def reserve_probe (nonce : String) (now reserved : Nat) (random : Option (Vector UInt8 12)) (target : zc.Target) :
    Tickets → Except ProbeError String × Tickets :=
  locked now fun tickets =>
    match normalized target with
    | .error error => .error error
    | .ok target =>
      if LIMIT ≤ tickets.entries.entries.length then .error .Quota
      else if 2 ^ 32 ≤ tickets.sequence + 1 then .error .Quota
      else
        match random with
        | none => .error .Unavailable
        | some random =>
          let sequence := tickets.sequence + 1
          let token := token nonce random sequence
          .ok (token, ⟨sequence, tickets.entries.insert token ⟨reserved, target, none⟩⟩)

def release_probe (nonce : String) (now : Nat) (token : String) : Tickets → Except ProbeError Unit × Tickets :=
  locked now fun tickets =>
    match validate_probe_token nonce token with
    | .error error => .error error
    | .ok _ =>
      match tickets.entries.get token with
      | none => .error .Missing
      | some _ => .ok ((), { tickets with entries := tickets.entries.erase token })

inductive State where
  | reserved
  | claimed
  | routed
  deriving DecidableEq

/-- What `write_probe` serializes. -/
structure View where
  token : String
  state : State
  target : zc.Target
  connection_id : Option String
  request_index : Option UInt32
  proxy : Option ProxyView

def Ticket.route (ticket : Ticket) : Option (Nat × Nat) :=
  ticket.claim.bind (·.route)

def Ticket.view (config : Config) (token : String) (ticket : Ticket) : Result View := do
  let proxy ← ticket.route.mapM fun route => config.proxy_view route.2
  pure {
    token
    state := if ticket.route.isSome then .routed else if ticket.claim.isSome then .claimed else .reserved
    target := ticket.target
    connection_id := ticket.claim.map (·.connection_id)
    request_index := ticket.claim.map (·.request_index)
    proxy }

/-- The ticket that `write_probe` clones under the lock. -/
def snapshot (nonce : String) (now : Nat) (token : String) : Tickets → Except ProbeError Ticket × Tickets :=
  locked now fun tickets =>
    match validate_probe_token nonce token with
    | .error error => .error error
    | .ok _ =>
      match tickets.entries.get token with
      | none => .error .Missing
      | some ticket => .ok (ticket, tickets)

def claim_probe (nonce : String) (now : Nat) (token : String) (target : zc.Target) (guard : Nat) (request_index : UInt32) :
    Tickets → Except ProbeError Unit × Tickets :=
  locked now fun tickets =>
    match validate_probe_token nonce token with
    | .error error => .error error
    | .ok _ =>
      match normalized target with
      | .error error => .error error
      | .ok target =>
        match tickets.entries.get token with
        | none => .error .Missing
        | some ticket =>
          if ticket.claim.isSome then .error .Consumed
          else if ticket.target ≠ target then .error .Target
          else
            let claim : Claim := ⟨nonce ++ "-" ++ String.ofList (Nat.toDigits 10 guard), request_index, none⟩
            .ok ((), { tickets with entries := tickets.entries.insert token { ticket with claim := some claim } })

/-- `Probe::routed`: the first route is kept. -/
def record_route (token : String) (route : Nat × Nat) (tickets : Tickets) : Tickets :=
  match tickets.entries.get token with
  | none => tickets
  | some ticket =>
    match ticket.claim with
    | none => tickets
    | some claim =>
      if claim.route.isNone then
        { tickets with
          entries := tickets.entries.insert token { ticket with claim := some { claim with route := some route } } }
      else tickets

def routed (now : Nat) (token : String) (route : Nat × Nat) (tickets : Tickets) : Tickets :=
  record_route token route (tickets.expire now)

/-! ## Calls -/

/-- The calls on one table; `fits` says what the bounded writer takes. -/
inductive Call where
  | reserve (target : zc.Target) (reserved : Nat) (random : Option (Vector UInt8 12))
  | claim (token : String) (target : zc.Target) (guard : Nat) (request_index : UInt32)
  | routed (token : String) (route : Nat × Nat)
  | write (token : String) (config : Config) (fits : View → Bool)
  | release (token : String)

inductive Answer where
  | issued (token : String)
  | claimed
  | recorded
  | written (view : View)
  | released
  | failed (error : ProbeError)
  | panicked

def answer {α : Type} (success : α → Answer) : Except ProbeError α × Tickets → Answer × Tickets
  | (.ok value, tickets) => (success value, tickets)
  | (.error error, tickets) => (.failed error, tickets)

def write_view (config : Config) (token : String) (fits : View → Bool) (ticket : Ticket) : Answer :=
  match ticket.view config token with
  | .error _ => .panicked
  | .ok view => if fits view then .written view else .failed .ResponseTooLarge

def exec (nonce : String) (now : Nat) : Call → Tickets → Answer × Tickets
  | .reserve target reserved random => answer .issued ∘ reserve_probe nonce now reserved random target
  | .claim token target guard request_index => answer (fun _ => .claimed) ∘ claim_probe nonce now token target guard request_index
  | .routed token route => fun tickets => (.recorded, probes.routed now token route tickets)
  | .write token config fits => answer (write_view config token fits) ∘ snapshot nonce now token
  | .release token => answer (fun _ => .released) ∘ release_probe nonce now token

end probes

end zc.connection
