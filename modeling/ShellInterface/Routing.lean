import ShellInterface.Socket

namespace ShellInterface

inductive Action
  | keep
  | drop
deriving DecidableEq, Repr

-- What becomes of a dropped stream: nothing, or its first chunk is read as a transmit request.
inductive DropCode
  | nop
  | gen
deriving DecidableEq, Repr

def Action.name : Action → String
  | keep => "Keep"
  | drop => "Drop"

def DropCode.name : DropCode → String
  | nop => "Nop"
  | gen => "Gen"

structure Route where
  action : Action
  dropCode : DropCode
deriving DecidableEq, Repr

instance : Storable Action := ⟨.number 1⟩
instance : Storable DropCode := ⟨.number 1⟩
instance : Storable Route := ⟨.record [layout Action, layout DropCode]⟩

namespace Route

def forward : Route := ⟨.keep, .nop⟩

-- Receive test: discarded.
def dump : Route := ⟨.drop, .nop⟩

-- Transmit test: discarded, but for the request in the first chunk.
def generate : Route := ⟨.drop, .gen⟩

end Route

-- Routes of single ports, the latest insertion last, and the route of all other ports.
structure RoutingTable where
  routes : List (Port × Route)
  fallback : Route
deriving DecidableEq, Repr

namespace RoutingTable

def empty (fallback : Route) : RoutingTable :=
  ⟨[], fallback⟩

def get? (t : RoutingTable) (port : Port) : Option Route :=
  t.routes.lookup port

def erase (t : RoutingTable) (port : Port) : RoutingTable :=
  { t with routes := t.routes.filter (·.1 != port) }

def insert (t : RoutingTable) (port : Port) (route : Route) : RoutingTable :=
  { t with routes := (t.erase port).routes ++ [(port, route)] }

def lookup (t : RoutingTable) (port : Port) : Route :=
  (t.get? port).getD t.fallback

end RoutingTable

end ShellInterface
