import ShellInterface.Config
import ShellInterface.Report.Monitor

namespace ShellInterface.Tcp

structure Config where
  maxSessions : Nat
  -- The capacity of the input buffer.
  inputBufferChunks : Nat
  -- The depth of the streams between processes.
  streamDepth : Nat
  -- How often to ask for room before a transfer is abandoned.
  sendRetries : Nat
  -- The cycles to wait for a listen reply.
  listenWatchdog : Nat
  -- The cycles to wait for an open reply before the wait starts anew.
  connectWatchdog : Nat
  listenPorts : PortTable
  routes : RoutingTable
  -- The faults to retain.
  faultHistory : Nat
deriving DecidableEq, Repr

namespace Config

def standard : Config where
  maxSessions := 32
  inputBufferChunks := 256
  streamDepth := 32
  sendRetries := 512
  listenWatchdog := 100
  connectWatchdog := 10000
  listenPorts := .standard
  routes := .standard
  faultHistory := Monitor.defaultHistory

def route (c : Config) (port : Port) (route : Route) : Config :=
  { c with routes := c.routes.insert port route }

def listenOn (c : Config) (ports : List Port) : Except ConfigError Config := do
  return { c with listenPorts := ← ShellInterface.listenPorts ports }

-- Session identifiers have 16 bits.
def sessionLimit : Nat := UInt16.size

def validate (c : Config) : Except ConfigError Unit := do
  requireNonZero "max_sessions" c.maxSessions
  requireNonZero "stream_depth" c.streamDepth
  requireNonZero "send_retries" c.sendRetries
  if sessionLimit < c.maxSessions then
    throw (.tooManySessions c.maxSessions)
  if c.inputBufferChunks < 2 then
    throw (.inputBufferTooSmall c.inputBufferChunks)
  checkListenPorts c.listenPorts.ports

end Config

end ShellInterface.Tcp
