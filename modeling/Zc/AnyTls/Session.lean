import Zc.AnyTls.Padding
import Zc.Lib.Wire

/-!
# AnyTLS sessions

`AnyTls` of `anytls.rs` over an arbitrary transport. The transport stays in the model after the session
has dropped it, so that one can tell what it took; `taken` says that it is dropped. `header` and `body`
hold what has been read of a frame, and `body_len` the length the header announces. `flooded` notes that
a heartbeat came while as many waited as may wait; no function reads it. Times are in milliseconds.
-/

namespace zc.anytls

open Poll (Act)

def CLOSE_TIMEOUT : Nat := 5000
def MAX_CLOSE_DRAIN : Nat := 1024 * 1024

structure AnyTls where
  inner : Wire io.Error
  taken : Bool
  padding : Padding
  shared : Padding
  group : Nat
  outgoing : List (List UInt8)
  written : Nat
  hearts : List UInt32
  reply_pending : Bool
  header : List UInt8
  body : List UInt8
  body_len : Nat
  delivered : Nat
  data_ready : Bool
  v2 : Bool
  acknowledged : Bool
  fin_queued : Bool
  write_closed : Bool
  peer_closed : Bool
  close_deadline : Option Nat
  close_drained : Nat
  failure : Option ErrorKind
  whole_closed : Bool
  draws : List (Option UInt32)
  flooded : Bool

/-- What the client tells about itself. -/
def settings (padding : Padding) : List UInt8 :=
  str.bytes ("v=2\nclient=zc/1.1.0-rc1\npadding-md5=" ++ padding.md5)

/-- The settings, the opening of the stream and its destination. -/
def opening (padding : Padding) (address : List UInt8) : List UInt8 :=
  let first := append_frame [] 4 0 (settings padding)
  let first := append_frame first 1 1 []
  append_frame first 2 1 address

namespace AnyTls

/-- The session that `open` flushes, once the transport has taken the authentication record. -/
def start (inner : Wire io.Error) (padding shared : Padding) (outgoing : List (List UInt8))
    (draws : List (Option UInt32)) : AnyTls where
  inner
  taken := false
  padding
  shared
  group := 2
  outgoing
  written := 0
  hearts := []
  reply_pending := false
  header := []
  body := []
  body_len := 0
  delivered := 0
  data_ready := false
  v2 := false
  acknowledged := false
  fin_queued := false
  write_closed := false
  peer_closed := false
  close_deadline := none
  close_drained := 0
  failure := none
  whole_closed := false
  draws
  flooded := false

def onInner {α : Type} (act : Act (Wire io.Error) io.Error α) : Act AnyTls io.Error α :=
  Act.zoom inner (fun this inner => { this with inner }) act

/-- `inner.as_mut().ok_or_else(closed)?`. -/
def live : Act AnyTls io.Error Unit := do
  let this ← Act.get
  if this.taken then Act.stop (.failed closed) else pure ()

/-- `inner.as_mut().unwrap()`. -/
def unwrap : Act AnyTls io.Error Unit := do
  let this ← Act.get
  Act.assert (!this.taken)

/-- The session without its transport. -/
def finished (this : AnyTls) : AnyTls :=
  { this with
    taken := true
    close_deadline := none
    outgoing := []
    hearts := []
    whole_closed := this.whole_closed || this.failure.isNone }

def finish : Act AnyTls io.Error Unit :=
  Act.modify finished

def fail {α : Type} (error : io.Error) : Act AnyTls io.Error α := do
  Act.modify fun this => finished { this with failure := some error.kind }
  Act.stop (.failed (outbound.truncated_read error))

def check_error : Act AnyTls io.Error Unit := do
  let this ← Act.get
  match this.failure with
  | some kind => Act.stop (.failed (outbound.truncated_read (.new kind "AnyTLS session failed")))
  | none => pure ()

/-! ## Writing -/

def queue (cmd : UInt8) (id : UInt32) (body : List UInt8) : Act AnyTls io.Error Unit := do
  let this ← Act.get
  let packets ← Act.zoom draws (fun this draws => { this with draws })
    (this.padding.packets this.group (append_frame [] cmd id body))
  Act.modify fun this => { this with outgoing := packets, group := min (this.group + 1) MAX_STOP }

/-- The session once the transport has taken `n` more bytes of its first packet. -/
def advanced (packet : List UInt8) (packets : List (List UInt8)) (n : Nat) (this : AnyTls) : AnyTls :=
  if this.written + n = packet.length then { this with outgoing := packets, written := 0 }
  else { this with written := this.written + n }

def write_round : Act AnyTls io.Error Unit := do
  let this ← Act.get
  match this.outgoing with
  | [] => pure ()
  | packet :: packets => do
    live
    match ← Act.ready (onInner (Wire.poll_write (packet.drop this.written))) with
    | .ok 0 => fail (.new .WriteZero "AnyTLS write stopped")
    | .ok n => Act.modify (advanced packet packets n)
    | .error error => fail error

/-- Packets and bytes that are not written yet. -/
def unsent (this : AnyTls) : Nat :=
  this.outgoing.length + this.outgoing.flatten.length - this.written

def drain_round : Act AnyTls io.Error (Option Unit) := do
  Act.whileDo unsent (fun this => !this.outgoing.isEmpty) write_round
  let this ← Act.get
  match this.hearts with
  | id :: hearts => do
    Act.modify fun this => { this with hearts }
    queue 9 id []
    pure none
  | [] => do
    live
    match ← Act.ready (onInner Wire.poll_flush) with
    | .ok _ => pure (some ())
    | .error error => fail error

def drain : Act AnyTls io.Error Unit :=
  Act.loop (fun this => this.hearts.length + 1) drain_round

def poll_write (data : List UInt8) : Act AnyTls io.Error Nat := do
  check_error
  let this ← Act.get
  if this.close_deadline.isSome || this.taken then Act.stop (.failed closed)
  else if data.isEmpty then pure 0
  else do
    drain
    let n := min data.length MAX_FRAME
    match ← Act.ready (queue 2 1 (data.take n)) with
    | .error error => fail error
    | .ok _ => pure n

def poll_flush : Act AnyTls io.Error Unit := do
  check_error
  let this ← Act.get
  if this.taken then pure ()
  else if this.write_closed then pure ()
  else drain

/-! ## Reading -/

def cmd (this : AnyTls) : UInt8 :=
  this.header[0]?.getD 0

def id (this : AnyTls) : UInt32 :=
  ofBe32 (this.header[1]?.getD 0) (this.header[2]?.getD 0) (this.header[3]?.getD 0) (this.header[4]?.getD 0)

def len (this : AnyTls) : Nat :=
  ofBe16 (this.header[5]?.getD 0) (this.header[6]?.getD 0)

def valid_header (this : AnyTls) : Bool :=
  match this.cmd with
  | 0 => this.id == 0
  | 2 => this.id == 1
  | 3 => this.id == 1 && this.len == 0
  | 5 | 6 => this.id == 0 && this.len ≤ MAX_TEXT
  | 7 => this.v2 && !this.acknowledged && this.id == 1 && this.len ≤ MAX_TEXT
  | 8 | 9 => this.v2 && this.len == 0
  | 10 => !this.v2 && this.id == 0 && this.len ≤ MAX_TEXT
  | _ => false

/-- The version that the server's settings announce. -/
def server_version (body : List UInt8) : Except io.Error Nat := do
  let fields ← fields body
  match fields.lookup "v" with
  | none => .error invalid
  | some text => do
    let v ← number text
    if 2 ≤ v ∧ v ≤ 65535 then .ok v else .error invalid

def control (md5 : List UInt8 → Vector UInt8 16) : Act AnyTls io.Error Unit := do
  let this ← Act.get
  match this.cmd with
  | 0 | 9 => pure ()
  | 2 => Act.modify fun this => { this with data_ready := !this.body.isEmpty }
  | 3 => finish
  | 5 => Act.stop (.failed (.new .PermissionDenied "AnyTLS server rejected session"))
  | 6 =>
    match Padding.parse md5 this.body with
    | .error error => Act.stop (.failed error)
    | .ok candidate => Act.modify fun this => { this with shared := candidate }
  | 7 => do
    Act.modify fun this => { this with acknowledged := true }
    if !this.body.isEmpty then Act.stop (.failed (.new .ConnectionRefused "AnyTLS remote stream failed"))
    else pure ()
  | 8 =>
    if this.hearts.length = MAX_HEARTS then do
      Act.modify fun this => { this with flooded := true }
      Act.stop (.failed invalid)
    else Act.modify fun this => { this with hearts := this.hearts ++ [this.id], reply_pending := true }
  | 10 =>
    match server_version this.body with
    | .error error => Act.stop (.failed error)
    | .ok _ => Act.modify fun this => { this with v2 := true }
  | _ => Act.stop (.failed invalid)

def header_round : Act AnyTls io.Error Unit := do
  let this ← Act.get
  unwrap
  match ← Act.ready (onInner (Wire.poll_read (7 - this.header.length))) with
  | .ok bytes =>
    if bytes.isEmpty then fail (.from .UnexpectedEof)
    else do
      Act.modify fun this => { this with header := this.header ++ bytes }
      let this ← Act.get
      if this.header.length = 7 then
        if this.valid_header then
          Act.modify fun this => { this with body := [], body_len := this.len, delivered := 0 }
        else fail invalid
      else pure ()
  | .error error => fail error

def body_round : Act AnyTls io.Error Unit := do
  let this ← Act.get
  unwrap
  match ← Act.ready (onInner (Wire.poll_read (this.body_len - this.body.length))) with
  | .ok bytes =>
    if bytes.isEmpty then fail (.from .UnexpectedEof)
    else Act.modify fun this => { this with body := this.body ++ bytes }
  | .error error => fail error

/-- Hands out bytes of the last frame of data. -/
def deliver (remaining : Nat) : Act AnyTls io.Error (List UInt8) := do
  let this ← Act.get
  Act.assert (this.delivered ≤ this.body.length)
  let n := min remaining (this.body.length - this.delivered)
  Act.modify fun this => { this with
    delivered := this.delivered + n
    data_ready := if this.delivered + n = this.body.length then false else this.data_ready }
  pure ((this.body.drop this.delivered).take n)

/-- Reads the rest of one frame and acts on it. -/
def receive_frame (md5 : List UInt8 → Vector UInt8 16) : Act AnyTls io.Error Unit := do
  Act.whileDo (fun this => 7 - this.header.length) (fun this => decide (this.header.length < 7)) header_round
  Act.whileDo (fun this => this.body_len - this.body.length) (fun this => decide (this.body.length < this.body_len)) body_round
  match ← Act.ready (control md5) with
  | .error error => fail error
  | .ok _ => Act.modify fun this => { this with header := [] }

/-- Answers the waiting heartbeats, unless the transport is not ready for that. -/
def drain_replies : Act AnyTls io.Error Unit := do
  let this ← Act.get
  if this.reply_pending then do
    match ← Act.attempt drain with
    | some _ => Act.modify fun this => { this with reply_pending := false }
    | none => pure ()
  else pure ()

def receive_round (md5 : List UInt8 → Vector UInt8 16) (remaining : Nat) : Act AnyTls io.Error (Option (List UInt8)) := do
  let this ← Act.get
  if this.data_ready then do
    let bytes ← deliver remaining
    pure (some bytes)
  else if this.taken then pure (some [])
  else if this.close_deadline.isSome then Act.stop .pending
  else do
    drain_replies
    receive_frame md5
    pure none

def receive (md5 : List UInt8 → Vector UInt8 16) (remaining : Nat) : Act AnyTls io.Error (List UInt8) := do
  check_error
  match ← Act.times (receive_round md5 remaining) 32 with
  | some bytes => pure bytes
  | none => Act.stop .pending

/-- Reads into a buffer with `remaining` free bytes. -/
def poll_read (md5 : List UInt8 → Vector UInt8 16) (remaining : Nat) : Act AnyTls io.Error (List UInt8) :=
  if remaining = 0 then pure [] else receive md5 remaining

/-! ## Shutting down -/

def queue_fin : Act AnyTls io.Error Unit := do
  let this ← Act.get
  if this.fin_queued then pure ()
  else do
    Act.modify fun this => { this with fin_queued := true }
    match ← Act.ready (queue 3 1 []) with
    | .error error => fail error
    | .ok _ => pure ()

def shutdown_write : Act AnyTls io.Error Unit := do
  drain
  queue_fin
  drain
  unwrap
  match ← Act.ready (onInner Wire.poll_shutdown) with
  | .ok _ => Act.modify fun this => { this with write_closed := true }
  | .error error => fail error

/-- Reads what the peer still sends and drops it; a value ends the loop. -/
def discard_round : Act AnyTls io.Error (Option Unit) := do
  let this ← Act.get
  if this.peer_closed then pure (some ())
  else do
    Act.assert (this.close_drained ≤ MAX_CLOSE_DRAIN)
    unwrap
    match ← Act.ready (onInner (Wire.poll_read (min (MAX_CLOSE_DRAIN - this.close_drained + 1) 16384))) with
    | .ok bytes =>
      if bytes.isEmpty then do
        Act.modify fun this => { this with peer_closed := true }
        pure none
      else do
        Act.modify fun this => { this with close_drained := this.close_drained + bytes.length }
        let this ← Act.get
        if this.close_drained > MAX_CLOSE_DRAIN then fail invalid else pure none
    | .error error =>
      if error.kind = .UnexpectedEof then do
        Act.modify fun this => { this with peer_closed := true }
        pure none
      else fail error

/-- Finishes the writing side, unless the transport is not ready for that. -/
def close_write : Act AnyTls io.Error Unit := do
  let this ← Act.get
  if this.write_closed then pure ()
  else do
    let _ ← Act.attempt shutdown_write
    pure ()

def poll_shutdown (now : Nat) : Act AnyTls io.Error Unit := do
  check_error
  let this ← Act.get
  if this.taken then pure ()
  else do
    let deadline := this.close_deadline.getD (now + CLOSE_TIMEOUT)
    Act.modify fun this => { this with close_deadline := some deadline }
    if deadline ≤ now then fail (.from .TimedOut)
    else do
      close_write
      let _ ← Act.times discard_round 16
      let this ← Act.get
      if this.peer_closed && this.write_closed then finish else Act.stop .pending

/-! ## Opening -/

/-- The authentication record, from the digest of the password. -/
def auth (digest : Vector UInt8 32) (size : Nat) : List UInt8 :=
  digest.toList ++ be16 size ++ List.replicate size 0

/-- `AnyTls::open` on a transport and a random source, polled at most `polls` times at each place where it
    waits. The destination comes encoded. -/
def «open» (digest : Vector UInt8 32) (address : List UInt8) (shared : Padding) (polls : Nat) :
    Act (Wire io.Error × List (Option UInt32)) io.Error AnyTls := do
  let size ← Act.zoom Prod.snd (fun both draws => (both.1, draws)) shared.auth_size
  let n ← Act.zoom Prod.fst (fun both inner => (inner, both.2)) (Act.await (Wire.poll_write (auth digest size)) polls)
  if n ≠ (auth digest size).length then Act.stop (.failed (.new .Other "incomplete AnyTLS authentication write"))
  else do
    Act.zoom Prod.fst (fun both inner => (inner, both.2)) (Act.await Wire.poll_flush polls)
    let outgoing ← Act.zoom Prod.snd (fun both draws => (both.1, draws)) (shared.packets 1 (opening shared address))
    let (inner, draws) ← Act.get
    match Act.await poll_flush polls (start inner shared shared outgoing draws) with
    | (.ok _, stream) => pure stream
    | (.error stop, _) => Act.stop stop

/-! ## Calls in any order -/

inductive Call where
  | write (bytes : List UInt8)
  | flush
  | read (remaining : Nat)
  | shutdown (now : Nat)

/-- What a call returns: the bytes that a write takes, the bytes that a read hands out. -/
def Call.perform (md5 : List UInt8 → Vector UInt8 16) : Call → Act AnyTls io.Error (List UInt8)
  | .write bytes => do
    let n ← poll_write bytes
    pure (bytes.take n)
  | .flush => do
    poll_flush
    pure []
  | .read remaining => poll_read md5 remaining
  | .shutdown now => do
    poll_shutdown now
    pure []

/-- Calls with their results. -/
abbrev History : Type :=
  List (Call × Except (Poll.Stop io.Error) (List UInt8))

def call_all (md5 : List UInt8 → Vector UInt8 16) : List Call → AnyTls → History × AnyTls
  | [], this => ([], this)
  | call :: calls, this =>
    let (result, next) := call.perform md5 this
    let (history, last) := call_all md5 calls next
    ((call, result) :: history, last)

/-- The bytes that a call acknowledges. -/
def taken_by : Call × Except (Poll.Stop io.Error) (List UInt8) → List UInt8
  | (.write _, .ok bytes) => bytes
  | _ => []

/-- The bytes that a call hands out. -/
def given_by : Call × Except (Poll.Stop io.Error) (List UInt8) → List UInt8
  | (.read _, .ok bytes) => bytes
  | _ => []

/-- The bytes that writes acknowledged. -/
def acknowledged_bytes (history : History) : List UInt8 :=
  history.flatMap taken_by

/-- The bytes that reads handed out. -/
def delivered_bytes (history : History) : List UInt8 :=
  history.flatMap given_by

end AnyTls

end zc.anytls
