import ShellInterface.Routing

namespace ShellInterface.Tcp

abbrev SessionId := UInt16

structure Notification where
  session : SessionId
  length : UInt16
  remoteAddr : UInt32
  remotePort : Port
  localPort : Port
deriving DecidableEq, Repr

instance : Storable Notification :=
  ⟨.record [layout SessionId, layout UInt16, layout UInt32, layout Port, layout Port]⟩

structure ReadRequest where
  session : SessionId
  length : UInt16
deriving DecidableEq, Repr

instance : Storable ReadRequest :=
  ⟨.record [layout SessionId, layout UInt16]⟩

inductive ConnectionState
  | closed
  | synSent
  | synReceived
  | established
  | finWait1
  | finWait2
  | closing
  | timeWait
  | lastAck
deriving DecidableEq, Repr

instance : Storable ConnectionState := ⟨.number 1⟩

def ConnectionState.name : ConnectionState → String
  | closed      => "Closed"
  | synSent     => "SynSent"
  | synReceived => "SynReceived"
  | established => "Established"
  | finWait1    => "FinWait1"
  | finWait2    => "FinWait2"
  | closing     => "Closing"
  | timeWait    => "TimeWait"
  | lastAck     => "LastAck"

structure OpenReply where
  session : SessionId
  state : ConnectionState
deriving DecidableEq, Repr

instance : Storable OpenReply :=
  ⟨.record [layout SessionId, layout ConnectionState]⟩

structure SendRequest where
  session : SessionId
  length : UInt16
deriving DecidableEq, Repr

instance : Storable SendRequest :=
  ⟨.record [layout SessionId, layout UInt16]⟩

structure SendReply where
  session : SessionId
  length : UInt16
  space : UInt16
  code : UInt8
deriving DecidableEq, Repr

instance : Storable SendReply :=
  ⟨.record [layout SessionId, layout UInt16, layout UInt16, layout UInt8]⟩

inductive SendVerdict
  | granted
  | noSpace
  | noConnection
deriving DecidableEq, Repr

namespace SendVerdict

def ofCode? (code : UInt8) : Option SendVerdict :=
  if code = 0 then some granted
  else if code = 1 then some noSpace
  else if code = 2 then some noConnection
  else none

def code : SendVerdict → UInt8
  | granted      => 0
  | noSpace      => 1
  | noConnection => 2

def name : SendVerdict → String
  | granted      => "NoError"
  | noSpace      => "NoSpace"
  | noConnection => "NoConnection"

end SendVerdict

structure ForwardCommand where
  session : SessionId
  length : UInt16
  route : Route
deriving DecidableEq, Repr

instance : Storable ForwardCommand :=
  ⟨.record [layout SessionId, layout UInt16, layout Route]⟩

end ShellInterface.Tcp
