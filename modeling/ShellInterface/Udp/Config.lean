import ShellInterface.Config
import ShellInterface.Report.Monitor

namespace ShellInterface.Udp

structure Config where
  -- The depth of the streams between processes.
  streamDepth : Nat
  -- The cycles to wait for a listen reply.
  listenWatchdog : Nat
  listenPorts : PortTable
  -- The port to close at startup.
  closePort : Port
  routes : RoutingTable
  -- The faults to retain.
  faultHistory : Nat
deriving DecidableEq, Repr

namespace Config

def standard : Config where
  streamDepth := 32
  listenWatchdog := 100
  listenPorts := .standard
  closePort := 0xDEAD
  routes := .standard
  faultHistory := Monitor.defaultHistory

def route (c : Config) (port : Port) (route : Route) : Config :=
  { c with routes := c.routes.insert port route }

def listenOn (c : Config) (ports : List Port) : Except ConfigError Config := do
  return { c with listenPorts := ← ShellInterface.listenPorts ports }

def validate (c : Config) : Except ConfigError Unit := do
  requireNonZero "stream_depth" c.streamDepth
  checkListenPorts c.listenPorts.ports

end Config

end ShellInterface.Udp
