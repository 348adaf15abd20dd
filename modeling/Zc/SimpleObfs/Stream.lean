import Zc.Io
import Zc.Lib.Search
import Zc.Lib.Wire
import Zc.Str

/-!
# The simple-obfs HTTP transport

`HttpObfsStream` of `simple_obfs.rs` over an arbitrary transport. The first write goes out in an HTTP
request, the first read comes after the head of an HTTP response, and everything else is raw. Times
are in milliseconds; the random bytes of a request are an argument of the write that sends it.
-/

namespace zc.simple_obfs

open Poll (Act)

def HEADER_LIMIT : Nat := 8192
def FIRST_WRITE_LIMIT : Nat := 65536

structure HttpObfsStream where
  inner : Wire io.Error
  host : String
  port : UInt16
  started : Bool
  pending : List UInt8
  written : Nat
  response : List UInt8
  tail : Nat
  upgraded : Bool
  deadline : Option Nat
  failed : Bool

def invalid (message : String) : io.Error :=
  .new .InvalidData message

def validate_host (host : String) : Except io.Error Unit :=
  if host = "" ∨ str.len host > 255 ∨ (str.bytes host).any fun b => b == 0 || b == 13 || b == 10 then
    .error (invalid "obfs host must be 1..255 bytes without NUL, CR or LF")
  else .ok ()

def CRLF : List UInt8 := [13, 10]

def STATUS : List UInt8 := str.bytes "HTTP/1.1 101"

/-- HTTP/1.1 101 and an optional reason phrase. -/
def valid_status (status : List UInt8) : Bool :=
  STATUS.isPrefixOf status && (status.length ≤ 12 || status[12]? == some 32 || status[12]? == some 9)

namespace HttpObfsStream

def new (inner : Wire io.Error) (host : String) (port : UInt16) : Except io.Error HttpObfsStream := do
  validate_host host
  if port = 0 then .error (invalid "invalid obfs server port")
  else .ok {
    inner, host, port
    started := false
    pending := []
    written := 0
    response := []
    tail := 0
    upgraded := false
    deadline := none
    failed := false }

/-- A call on the transport. -/
def onInner {α : Type} (act : Act (Wire io.Error) io.Error α) : Act HttpObfsStream io.Error α :=
  Act.zoom inner (fun this inner => { this with inner }) act

/-- Remembers the failure and returns the error. -/
def fail {α : Type} (error : io.Error) : Act HttpObfsStream io.Error α := do
  Act.modify fun this => { this with failed := true }
  Act.stop (.failed error)

/-! ## Writing -/

def drain_round : Act HttpObfsStream io.Error Unit := do
  let this ← Act.get
  match ← Act.ready (onInner (Wire.poll_write (this.pending.drop this.written))) with
  | .ok 0 => fail (.from .WriteZero)
  | .ok n => Act.modify fun this => { this with written := this.written + n }
  | .error error => fail error

/-- The bytes that are not written yet. -/
def unwritten (this : HttpObfsStream) : Nat :=
  this.pending.length - this.written

def drain (now : Nat) : Act HttpObfsStream io.Error Unit := do
  let this ← Act.get
  if this.failed then Act.stop (.failed (invalid "obfs transport is closed after an error"))
  else do
    Act.whileDo unwritten (fun this => decide (this.written < this.pending.length)) drain_round
    Act.modify fun this =>
      if this.pending.isEmpty then this
      else { this with
        pending := []
        written := 0
        deadline := if this.upgraded then this.deadline else some (now + 10000) }

/-- The head of the request. -/
def envelope (base64 : List UInt8 → String) (host : String) (port : UInt16) (random : Vector UInt8 18) (count : Nat) :
    List UInt8 :=
  let host := if port = 80 then host else host ++ ":" ++ toString port.toNat
  str.bytes ("GET / HTTP/1.1\r\nHost: " ++ host ++ "\r\nUser-Agent: curl/7." ++ toString (random[0].toNat % 51) ++ "." ++
    toString (random[1].toNat % 2) ++ "\r\nUpgrade: websocket\r\nConnection: Upgrade\r\nSec-WebSocket-Key: " ++
    base64 (random.toList.drop 2) ++ "\r\nContent-Length: " ++ toString count ++ "\r\n\r\n")

/-- The random source gives 18 bytes or fails with an error. -/
def poll_write (base64 : List UInt8 → String) (now : Nat) (random : Except io.Error (Vector UInt8 18))
    (data : List UInt8) : Act HttpObfsStream io.Error Nat := do
  drain now
  if data.isEmpty then pure 0
  else do
    let this ← Act.get
    if this.started then onInner (Wire.poll_write data)
    else match random with
      | .error error => Act.stop (.failed error)
      | .ok random => do
        let count := min data.length FIRST_WRITE_LIMIT
        Act.modify fun this => { this with
          pending := envelope base64 this.host this.port random count ++ data.take count
          started := true }
        pure count

def poll_flush (now : Nat) : Act HttpObfsStream io.Error Unit := do
  drain now
  onInner Wire.poll_flush

def poll_shutdown (now : Nat) : Act HttpObfsStream io.Error Unit := do
  drain now
  onInner Wire.poll_shutdown

/-! ## Reading -/

/-- Looks for the end of the response head. -/
def check_response : Act HttpObfsStream io.Error Unit := do
  let this ← Act.get
  match Search.position (CRLF ++ CRLF) this.response with
  | some finish =>
    match Search.position CRLF this.response with
    | none => Act.stop .panicked
    | some line_end =>
      if valid_status (this.response.take line_end) then
        Act.modify fun this => { this with upgraded := true, deadline := none, tail := finish + 4 }
      else fail (invalid "invalid obfs HTTP upgrade status")
  | none =>
    if this.response.length = HEADER_LIMIT then fail (invalid "obfs response header exceeds 8192 bytes")
    else pure ()

/-- Hands out bytes that came with the response head. -/
def take_tail (remaining : Nat) : Act HttpObfsStream io.Error (List UInt8) := do
  let this ← Act.get
  let n := min remaining (this.response.length - this.tail)
  Act.assert (this.tail + n ≤ this.response.length)
  Act.modify fun this =>
    if this.tail + n = this.response.length then { this with response := [], tail := 0 }
    else { this with tail := this.tail + n }
  pure ((this.response.drop this.tail).take n)

def read_response : Act HttpObfsStream io.Error Unit := do
  let this ← Act.get
  Act.assert (this.response.length ≤ HEADER_LIMIT)
  match ← Act.ready (onInner (Wire.poll_read (HEADER_LIMIT - this.response.length))) with
  | .ok input => do
    if input.isEmpty then fail (.new .UnexpectedEof "truncated obfs response")
    else do
      Act.modify fun this => { this with response := this.response ++ input }
      check_response
  | .error error => fail (if this.response.isEmpty then error else outbound.truncated_read error)

def read_round (now remaining : Nat) : Act HttpObfsStream io.Error (Option (List UInt8)) := do
  let this ← Act.get
  if this.upgraded then
    if this.tail < this.response.length then do
      let bytes ← take_tail remaining
      pure (some bytes)
    else do
      let bytes ← onInner (Wire.poll_read remaining)
      pure (some bytes)
  else if this.deadline.any (· ≤ now) then fail (.new .TimedOut "obfs response timed out after 10 seconds")
  else do
    read_response
    pure none

/-- Rounds that a read may still take. -/
def rounds_left (this : HttpObfsStream) : Nat :=
  if this.upgraded then 1 else HEADER_LIMIT + 2 - this.response.length

/-- Reads into a buffer with `remaining` free bytes. -/
def poll_read (now remaining : Nat) : Act HttpObfsStream io.Error (List UInt8) := do
  if remaining = 0 then pure []
  else do
    drain now
    Act.loop rounds_left (read_round now remaining)

/-! ## Results of calls -/

/-- The bytes of one result. -/
def handed : Except (Poll.Stop io.Error) (List UInt8) → List UInt8
  | .ok bytes => bytes
  | .error _ => []

/-- The bytes of the results of some calls. -/
def delivered (results : List (Except (Poll.Stop io.Error) (List UInt8))) : List UInt8 :=
  results.flatMap handed

theorem delivered_cons (result : Except (Poll.Stop io.Error) (List UInt8))
    (results : List (Except (Poll.Stop io.Error) (List UInt8))) :
    delivered (result :: results) = handed result ++ delivered results :=
  List.flatMap_cons

theorem drain_of_empty {this : HttpObfsStream} (now : Nat) (hpending : this.pending = []) (hfailed : this.failed = false) :
    drain now this = (.ok (), this) := by
  have hmeasure : unwritten this = 0 := by
    rw [unwritten, hpending]
    exact Nat.zero_sub _
  have hget : Act.get this = ((.ok this, this) : Except (Poll.Stop io.Error) _ × _) := rfl
  have hwhile : Act.whileDo unwritten (fun this => decide (this.written < this.pending.length)) drain_round this =
      (.ok (), this) := by
    rw [Act.whileDo, hmeasure]
    rfl
  rw [drain, Act.run_bind_of_ok hget, hfailed, if_neg Bool.false_ne_true, Act.run_bind_of_ok hwhile]
  rw [Act.modify, hpending]
  rfl

theorem drain_of_failed {this : HttpObfsStream} (now : Nat) (hfailed : this.failed = true) :
    drain now this = (.error (.failed (invalid "obfs transport is closed after an error")), this) := by
  have hget : Act.get this = ((.ok this, this) : Except (Poll.Stop io.Error) _ × _) := rfl
  rw [drain, Act.run_bind_of_ok hget, if_pos hfailed]
  rfl

end HttpObfsStream

end zc.simple_obfs
