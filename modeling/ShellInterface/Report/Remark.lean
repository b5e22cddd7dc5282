import ShellInterface.ControlRecord
import ShellInterface.Tcp.Message
import ShellInterface.Report.Level

namespace ShellInterface

open Tcp (SessionId)

-- Who asked for a transmission: the application, or the transmit test.
inductive Requester
  | app
  | test
deriving DecidableEq, Repr

def Requester.name : Requester → String
  | app  => "App"
  | test => "Test"

inductive Remark
  | listenStalled (port : Port)
  | listenRequested (port : Port)
  | listening (port : Port)
  | closeStalled (port : Port)
  | closeRequested (port : Port)
  | closed (port : Port)
  | posted (session : SessionId) (port : Port) (bytes : UInt16)
  | taken (session : SessionId) (bytes : UInt16) (left : Nat)
  | requested (session : SessionId) (bytes : UInt16) (route : Route)
  | recordIgnored (record : ControlRecord)
  | openRequested (sock : Socket)
  | connected (sock : Socket) (session : SessionId)
  | triggerStalled
  | triggered (session : SessionId) (bytes : UInt16)
  | streamDiscarded (session : SessionId) (bytes : UInt16)
  | forwarding (session : SessionId) (bytes : UInt16)
  | recordFound (record : ControlRecord)
  | testIgnored (session : SessionId)
  | sendAccepted (requester : Requester) (session : SessionId) (bytes : UInt16)
  | retrying (session : SessionId) (space : UInt16)
  | testSent (session : SessionId) (bytes : UInt16)
  | datagramDiscarded (sockets : SocketPair)
  | receiveTest (port : Port)
  | transmitTest (port : Port)
  | datagramRequested (bytes : UInt16) (requester : Socket)
  | appDatagramDiscarded (bytes : UInt16) (dst : Socket)
  | appDatagram (bytes : UInt16) (sockets : SocketPair)
  | testDatagramIgnored (bytes : UInt16)
  | testDatagram (bytes : UInt16) (sockets : SocketPair)
deriving DecidableEq, Repr

namespace Remark

def hex (n : Nat) : String :=
  let digits := (Nat.toDigits 16 n).map Char.toUpper
  "0x" ++ .ofList (digits.leftpad 4 '0')

def level : Remark → Level
  | listenStalled ..        => .warn
  | listenRequested ..      => .info
  | listening ..            => .info
  | closeStalled ..         => .warn
  | closeRequested ..       => .info
  | closed ..               => .info
  | posted ..               => .trace
  | taken ..                => .trace
  | requested ..            => .debug
  | recordIgnored ..        => .warn
  | openRequested ..        => .info
  | connected ..            => .info
  | triggerStalled          => .warn
  | triggered ..            => .info
  | streamDiscarded ..      => .warn
  | forwarding ..           => .debug
  | recordFound ..          => .info
  | testIgnored ..          => .warn
  | sendAccepted ..         => .debug
  | retrying ..             => .debug
  | testSent ..             => .info
  | datagramDiscarded ..    => .debug
  | receiveTest ..          => .debug
  | transmitTest ..         => .debug
  | datagramRequested ..    => .info
  | appDatagramDiscarded .. => .warn
  | appDatagram ..          => .debug
  | testDatagramIgnored ..  => .warn
  | testDatagram ..         => .debug

def text : Remark → String
  | listenStalled p =>
    s!"cannot request to listen on port {p} because the stream is full"
  | listenRequested p =>
    s!"requesting to listen on port #{p} (" ++ hex p.toNat ++ ")"
  | listening p =>
    s!"listening on port {p}"
  | closeStalled p =>
    s!"cannot request to close port {p} because the stream is full"
  | closeRequested p =>
    s!"requesting to close port #{p} (" ++ hex p.toNat ++ ")"
  | closed p =>
    s!"port {p} is closed"
  | posted s p n =>
    s!"session {s} (port {p}): +{n} bytes"
  | taken s n left =>
    s!"session {s}: -{n} bytes, {left} left"
  | requested s n r =>
    s!"requesting {n} bytes of session {s} (" ++ r.action.name ++ "/" ++ r.dropCode.name ++ ")"
  | recordIgnored r =>
    "disabled: ignoring request for " ++ r.sock.text ++ s!" ({r.length} bytes)"
  | openRequested s =>
    "requesting to connect to " ++ s.text
  | connected s n =>
    "connected to " ++ s.text ++ s!" with session {n}"
  | triggerStalled =>
    "cannot trigger the write path because the stream is full"
  | triggered s n =>
    s!"triggering the transmission of {n} bytes on session {s}"
  | streamDiscarded s n =>
    s!"disabled: discarding {n} bytes of session {s}"
  | forwarding s n =>
    s!"forwarding {n} bytes of session {s}"
  | recordFound r =>
    "transmit request for " ++ r.sock.text ++ s!" ({r.length} bytes)"
  | testIgnored s =>
    s!"disabled: ignoring test request of session {s}"
  | sendAccepted r s n =>
    r.name ++ s!" request of {n} bytes on session {s}"
  | retrying s n =>
    s!"session {s}: {n} bytes left, retrying"
  | testSent s n =>
    s!"sent {n} test bytes on session {s}"
  | datagramDiscarded p =>
    "disabled: discarding datagram " ++ p.text
  | receiveTest p =>
    s!"receive test mode (port {p})"
  | transmitTest p =>
    s!"transmit test mode (port {p})"
  | datagramRequested n s =>
    s!"transmit request of {n} bytes from " ++ s.text
  | appDatagramDiscarded n s =>
    s!"disabled: discarding datagram of {n} bytes to " ++ s.text
  | appDatagram n p =>
    s!"datagram of {n} bytes from the UAF (" ++ p.text ++ ")"
  | testDatagramIgnored n =>
    s!"disabled: ignoring test request of {n} bytes"
  | testDatagram n p =>
    s!"test datagram of {n} bytes (" ++ p.text ++ ")"

end Remark

end ShellInterface
