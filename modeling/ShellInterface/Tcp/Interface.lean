import ShellInterface.Listener
import ShellInterface.Report.Ledger
import ShellInterface.Tcp.Config
import ShellInterface.Tcp.Connector
import ShellInterface.Tcp.InputBuffer
import ShellInterface.Tcp.Interrupts
import ShellInterface.Tcp.Receiver
import ShellInterface.Tcp.Transmitter

namespace ShellInterface.Tcp

structure Ingress where
  notifications : Fifo Notification
  data : Fifo Chunk
  sessions : Fifo SessionId
  listenReplies : Fifo Bool
  openReplies : Fifo OpenReply
  sendReplies : Fifo SendReply
  appRequests : Fifo SendRequest
  appData : Fifo Chunk
deriving DecidableEq, Repr

def Ingress.create (depth : Nat) : Except Halt Ingress := do
  return {
    notifications := ← Fifo.create "shl_notif" depth
    data := ← Fifo.create "shl_data" depth
    sessions := ← Fifo.create "shl_meta" depth
    listenReplies := ← Fifo.create "shl_lsn_rep" depth
    openReplies := ← Fifo.create "shl_opn_rep" depth
    sendReplies := ← Fifo.create "shl_snd_rep" depth
    appRequests := ← Fifo.create "taf_snd_req" depth
    appData := ← Fifo.create "taf_data" depth }

structure Egress where
  readRequests : Fifo ReadRequest
  listenRequests : Fifo Port
  openRequests : Fifo Socket
  closeRequests : Fifo SessionId
  sendRequests : Fifo SendRequest
  data : Fifo Chunk
  appSessions : Fifo SessionId
  appLengths : Fifo UInt16
  appData : Fifo Chunk
deriving DecidableEq, Repr

def Egress.create (depth : Nat) : Except Halt Egress := do
  return {
    readRequests := ← Fifo.create "shl_dreq" depth
    listenRequests := ← Fifo.create "shl_lsn_req" depth
    openRequests := ← Fifo.create "shl_opn_req" depth
    closeRequests := ← Fifo.create "shl_cls_req" depth
    sendRequests := ← Fifo.create "shl_snd_req" depth
    data := ← Fifo.create "shl_data" depth
    appSessions := ← Fifo.create "taf_meta" depth
    appLengths := ← Fifo.create "taf_dlen" depth
    appData := ← Fifo.create "taf_data" depth }

structure Inner where
  commands : Fifo ForwardCommand
  sessions : Fifo SessionId
  buffer : Fifo Chunk
  enqueued : Fifo Unit
  dequeued : Fifo Unit
  records : Fifo ControlRecord
  testRequests : Fifo SendRequest
deriving DecidableEq, Repr

def Inner.create (depth bufferChunks : Nat) : Except Halt Inner := do
  return {
    commands := ← Fifo.create "fwd_cmd" depth
    sessions := ← Fifo.create "irb_meta" depth
    buffer := ← Fifo.create "irb_data" bufferChunks
    enqueued := ← Fifo.create "enq" depth
    dequeued := ← Fifo.create "deq" depth
    records := ← Fifo.create "sock_len" depth
    testRequests := ← Fifo.create "test_req" depth }

structure Network where
  listener : Listener
  connector : Connector
  interrupts : Interrupts
  occupancy : Occupancy
  receiver : Receiver
  transmitter : Transmitter
  inner : Inner
deriving DecidableEq, Repr

-- The name under which the faults of the input buffer are reported.
def InputBuffer.origin : String := "TSIF/IRb"

def Network.create (c : Config) : Except Halt Network := do
  return {
    listener := .create "TSIF/LSn" c.listenPorts.ports c.listenWatchdog
    connector := .create c.connectWatchdog
    interrupts := ← Interrupts.create c.maxSessions c.routes
    occupancy := ← Occupancy.create c.inputBufferChunks
    receiver := .start
    transmitter := .create c.sendRetries
    inner := ← Inner.create c.streamDepth c.inputBufferChunks }

structure Frame where
  net : Network
  i : Ingress
  o : Egress
deriving DecidableEq, Repr

namespace Frame

def listen (enable : Bool) (f : Frame) : Traced Frame := do
  let (listener, l) ← f.net.listener.tick enable {
    requests := f.o.listenRequests
    replies := f.i.listenReplies }
  return {
    net := { f.net with listener }
    i := { f.i with listenReplies := l.replies }
    o := { f.o with listenRequests := l.requests } }

def connect (enable : Bool) (f : Frame) : Traced Frame := do
  let (connector, l) ← f.net.connector.tick enable {
    records := f.net.inner.records
    openReplies := f.i.openReplies
    openRequests := f.o.openRequests
    closeRequests := f.o.closeRequests
    testRequests := f.net.inner.testRequests }
  return {
    net := { f.net with
      connector
      inner := { f.net.inner with records := l.records, testRequests := l.testRequests } }
    i := { f.i with openReplies := l.openReplies }
    o := { f.o with openRequests := l.openRequests, closeRequests := l.closeRequests } }

def interrupt (f : Frame) : Traced Frame := do
  let (interrupts, l) ← f.net.interrupts.tick {
    requests := f.o.readRequests
    commands := f.net.inner.commands
    notifications := f.i.notifications
    occupancy := f.net.occupancy }
  return {
    net := { f.net with
      interrupts
      occupancy := l.occupancy
      inner := { f.net.inner with commands := l.commands } }
    i := { f.i with notifications := l.notifications }
    o := { f.o with readRequests := l.requests } }

def buffer (f : Frame) : Traced Frame := do
  let l ← InputBuffer.tick {
    data := f.i.data
    sessions := f.i.sessions
    buffer := f.net.inner.buffer
    bufferSessions := f.net.inner.sessions
    enqueued := f.net.inner.enqueued }
  return { f with
    net := { f.net with
      inner := { f.net.inner with
        buffer := l.buffer
        sessions := l.bufferSessions
        enqueued := l.enqueued } }
    i := { f.i with data := l.data, sessions := l.sessions } }

def track (f : Frame) : Traced Frame := do
  let ((occupancy, error), enqueued, dequeued) :=
    f.net.occupancy.tick f.net.inner.enqueued f.net.inner.dequeued
  if let some e := error then
    .fault InputBuffer.origin (.inputBuffer e)
  return { f with
    net := { f.net with occupancy, inner := { f.net.inner with enqueued, dequeued } } }

def receive (enable : Bool) (f : Frame) : Traced Frame := do
  let (receiver, l) ← f.net.receiver.tick enable {
    commands := f.net.inner.commands
    sessions := f.net.inner.sessions
    data := f.net.inner.buffer
    appSessions := f.o.appSessions
    appLengths := f.o.appLengths
    appData := f.o.appData
    records := f.net.inner.records
    dequeued := f.net.inner.dequeued }
  return { f with
    net := { f.net with
      receiver
      inner := { f.net.inner with
        commands := l.commands
        sessions := l.sessions
        buffer := l.data
        records := l.records
        dequeued := l.dequeued } }
    o := { f.o with
      appSessions := l.appSessions
      appLengths := l.appLengths
      appData := l.appData } }

def transmit (enable : Bool) (f : Frame) : Traced Frame := do
  let (transmitter, l) ← f.net.transmitter.tick enable {
    appRequests := f.i.appRequests
    appData := f.i.appData
    testRequests := f.net.inner.testRequests
    replies := f.i.sendReplies
    requests := f.o.sendRequests
    data := f.o.data }
  return {
    net := { f.net with
      transmitter
      inner := { f.net.inner with testRequests := l.testRequests } }
    i := { f.i with appRequests := l.appRequests, appData := l.appData, sendReplies := l.replies }
    o := { f.o with sendRequests := l.requests, data := l.data } }

def cycle (enable : Bool) (f : Frame) : Traced Frame :=
  f.listen enable >>= connect enable >>= interrupt >>= buffer >>= track >>= receive enable >>=
    transmit enable

end Frame

structure Interface where
  net : Network
  ledger : Ledger
deriving DecidableEq, Repr

namespace Interface

def create (c : Config) : Except SetupError Interface := do
  c.validate.mapError .config
  let net ← (Network.create c).mapError .halt
  let ledger ← (Ledger.create c.faultHistory).mapError .halt
  return { net, ledger }

def step (x : Interface) (enable : Bool) (i : Ingress) (o : Egress) :
    Traced (Interface × Ingress × Egress) :=
  let t := Frame.cycle enable { net := x.net, i, o }
  { notes := t.notes
    outcome := do
      let f ← t.outcome
      return ({ net := f.net, ledger := ← x.ledger.close t.notes }, f.i, f.o) }

def bufferedChunks (x : Interface) : Nat :=
  x.net.inner.buffer.length

end Interface

end ShellInterface.Tcp
