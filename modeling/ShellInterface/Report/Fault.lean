import ShellInterface.Occupancy
import ShellInterface.Tcp.Message
import ShellInterface.Report.Level

namespace ShellInterface

open Tcp (SessionId ConnectionState)

inductive Fault
  | zeroLengthNotification (session : SessionId)
  | sessionOutOfRange (session : SessionId) (sessions : Nat)
  | streamLengthMismatch (session : SessionId) (expected : UInt16) (actual : Nat)
  | sessionMismatch (expected actual : SessionId)
  | malformedRecord (bytes : Nat)
  | zeroLengthTestRequest (requester : Socket)
  | socketMismatch (requested opened : Socket)
  | noOpenConnection (requested : Socket)
  | openFailed (sock : Socket) (state : ConnectionState)
  | openTimeout (sock : Socket)
  | unexpectedOpenReply (session : SessionId)
  | unknownSendReply (session : SessionId) (code : UInt8)
  | noConnection (session : SessionId)
  | sendRetriesExhausted (session : SessionId) (attempts : Nat)
  | inputBuffer (error : OccupancyError)
  | listenDenied (port : Port)
  | listenTimeout (port : Port)
  | closeDenied (port : Port)
  | unexpectedCloseReply
deriving DecidableEq, Repr

-- A tag, and beside it the widest cause, which is that of the input buffer.
instance : Storable Fault :=
  ⟨.record [.number 1, layout OccupancyError]⟩

namespace Fault

def kind : Fault → String
  | zeroLengthNotification ..  => "ZeroLengthNotification"
  | sessionOutOfRange ..       => "SessionOutOfRange"
  | streamLengthMismatch ..    => "StreamLengthMismatch"
  | sessionMismatch ..         => "SessionMismatch"
  | malformedRecord ..         => "MalformedRecord"
  | zeroLengthTestRequest ..   => "ZeroLengthTestRequest"
  | socketMismatch ..          => "SocketMismatch"
  | noOpenConnection ..        => "NoOpenConnection"
  | openFailed ..              => "OpenFailed"
  | openTimeout ..             => "OpenTimeout"
  | unexpectedOpenReply ..     => "UnexpectedOpenReply"
  | unknownSendReply ..        => "UnknownSendReply"
  | noConnection ..            => "NoConnection"
  | sendRetriesExhausted ..    => "SendRetriesExhausted"
  | inputBuffer ..             => "InputBuffer"
  | listenDenied ..            => "ListenDenied"
  | listenTimeout ..           => "ListenTimeout"
  | closeDenied ..             => "CloseDenied"
  | unexpectedCloseReply       => "UnexpectedCloseReply"

-- A fault of this side, or of the engine against its protocol, is an error; a refusal is a
-- warning.
def level : Fault → Level
  | zeroLengthNotification ..  => .warn
  | sessionOutOfRange ..       => .error
  | streamLengthMismatch ..    => .error
  | sessionMismatch ..         => .error
  | malformedRecord ..         => .error
  | zeroLengthTestRequest ..   => .warn
  | socketMismatch ..          => .error
  | noOpenConnection ..        => .error
  | openFailed ..              => .error
  | openTimeout ..             => .error
  | unexpectedOpenReply ..     => .warn
  | unknownSendReply ..        => .warn
  | noConnection ..            => .warn
  | sendRetriesExhausted ..    => .warn
  | inputBuffer ..             => .error
  | listenDenied ..            => .warn
  | listenTimeout ..           => .error
  | closeDenied ..             => .warn
  | unexpectedCloseReply       => .warn

def message : Fault → String
  | zeroLengthNotification s =>
    s!"notification of zero bytes for session {s}, discarded"
  | sessionOutOfRange s n =>
    s!"session {s} is out of the interrupt table ({n} sessions), notification discarded"
  | streamLengthMismatch s e a =>
    s!"session {s}: {e} bytes were requested but the stream carried {a}"
  | sessionMismatch e a =>
    s!"expected metadata of session {e}, received session {a}; stream discarded"
  | malformedRecord n =>
    s!"control record of {n} bytes is too short"
  | zeroLengthTestRequest r =>
    "transmit request of zero bytes from " ++ r.text
  | socketMismatch r o =>
    "transmit request for " ++ r.text ++ " but the last opened connection is to " ++ o.text
  | noOpenConnection r =>
    "transmit request for " ++ r.text ++ " but no connection was opened"
  | openFailed s st =>
    "failed to connect to " ++ s.text ++ " (TCP state is " ++ st.name ++ ")"
  | openTimeout s =>
    "timeout while connecting to " ++ s.text
  | unexpectedOpenReply s =>
    s!"unexpected open reply for session {s}, closing it"
  | unknownSendReply s c =>
    s!"send reply for session {s} carries unknown error code {c}"
  | noConnection s =>
    s!"session {s} is not established, transfer abandoned"
  | sendRetriesExhausted s n =>
    s!"session {s}: no transmit space after {n} requests, transfer abandoned"
  | inputBuffer e =>
    "input read buffer: " ++ e.message
  | listenDenied p =>
    s!"listening on port {p} was denied"
  | listenTimeout p =>
    s!"timeout while requesting to listen on port {p}"
  | closeDenied p =>
    s!"closing port {p} was denied, it is still open"
  | unexpectedCloseReply =>
    "unexpected close reply"

end Fault

end ShellInterface
