import ShellInterface.Halt
import ShellInterface.Routing

namespace ShellInterface

namespace ListenPort

def receiveTest : Port := 8800

def transmitTest : Port := 8801

def echoStored : Port := 8802

def echo : Port := 8803

def iperf : Port := 5001

def iperf3 : Port := 5201

def maxCount : Nat := 8

def firstEphemeral : Port := 0x8000

end ListenPort

structure PortTable where
  ports : List Port
  length_le : ports.length ≤ ListenPort.maxCount
deriving DecidableEq, Repr

namespace PortTable

def standard : PortTable where
  ports := [ListenPort.receiveTest, ListenPort.transmitTest, ListenPort.echoStored,
    ListenPort.echo, ListenPort.iperf, ListenPort.iperf3]
  length_le := by decide

def ofList? (ports : List Port) : Option PortTable :=
  if h : ports.length ≤ ListenPort.maxCount then some ⟨ports, h⟩ else none

def ofList (ports : List Port) : Except Halt PortTable :=
  (ofList? ports).elim (.error .tooManyPorts) .ok

end PortTable

-- The test ports have routes of their own, all other traffic goes to the application.
def RoutingTable.standard : RoutingTable :=
  (empty .forward)
    |>.insert ListenPort.receiveTest .dump
    |>.insert ListenPort.transmitTest .generate

inductive ConfigError
  | ephemeralListenPort (port : Port)
  | tooManyListenPorts
  | zero (field : String)
  | inputBufferTooSmall (chunks : Nat)
  | tooManySessions (sessions : Nat)
deriving DecidableEq, Repr

namespace ConfigError

def kind : ConfigError → String
  | ephemeralListenPort _ => "EphemeralListenPort"
  | tooManyListenPorts    => "TooManyListenPorts"
  | zero _                => "Zero"
  | inputBufferTooSmall _ => "InputBufferTooSmall"
  | tooManySessions _     => "TooManySessions"

def message : ConfigError → String
  | ephemeralListenPort p => s!"listen port {p} is not in the static port range"
  | tooManyListenPorts    => s!"at most {ListenPort.maxCount} listen ports are supported"
  | zero f                => s!"`{f}` must be non-zero"
  | inputBufferTooSmall n => s!"the input read buffer needs at least 2 chunks, got {n}"
  | tooManySessions n     => s!"{n} sessions do not fit a 16-bit session id"

end ConfigError

-- Why an interface was not built.
inductive SetupError
  | config (error : ConfigError)
  | halt (cause : Halt)
deriving DecidableEq, Repr

def requireNonZero (field : String) (value : Nat) : Except ConfigError Unit :=
  if value = 0 then .error (.zero field) else .ok ()

def checkListenPorts (ports : List Port) : Except ConfigError Unit :=
  match ports.find? (ListenPort.firstEphemeral ≤ ·) with
  | some p => .error (.ephemeralListenPort p)
  | none   => .ok ()

-- A table of listen ports. A table that is too long is refused before its ports are looked at.
def listenPorts (ports : List Port) : Except ConfigError PortTable := do
  match PortTable.ofList? ports with
  | none   => throw .tooManyListenPorts
  | some t =>
    checkListenPorts ports
    return t

end ShellInterface
