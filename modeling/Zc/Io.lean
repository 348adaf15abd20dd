import Zc.Error

/-!
# I/O errors

An `io::Error` as the streams pass it on: a bare kind, a message, or the mark that an incoming
protocol unit was interrupted, which keeps the kind and drops the text.
-/

namespace zc.io

inductive Payload where
  | none
  | message (text : String)
  | ProtocolReadTruncated
  deriving DecidableEq

structure Error where
  kind : ErrorKind
  payload : Payload
  deriving DecidableEq

/-- `io::Error::from(kind)`. -/
def Error.from (kind : ErrorKind) : Error :=
  ⟨kind, .none⟩

/-- `io::Error::new(kind, text)`. -/
def Error.new (kind : ErrorKind) (text : String) : Error :=
  ⟨kind, .message text⟩

end zc.io

namespace zc.outbound

def truncated_read (error : io.Error) : io.Error :=
  ⟨error.kind, .ProtocolReadTruncated⟩

end zc.outbound
