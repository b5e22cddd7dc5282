import ShellInterface.Listener
import ShellInterface.Report.Ledger
import ShellInterface.Udp.Closer
import ShellInterface.Udp.Config
import ShellInterface.Udp.Receiver
import ShellInterface.Udp.Transmitter

namespace ShellInterface.Udp

structure Ingress where
  listenReplies : Fifo Bool
  closeReplies : Fifo Bool
  data : Fifo Chunk
  headers : Fifo SocketPair
  appData : Fifo Chunk
  appHeaders : Fifo SocketPair
  appLengths : Fifo UInt16
deriving DecidableEq, Repr

def Ingress.create (depth : Nat) : Except Halt Ingress := do
  return {
    listenReplies := ← Fifo.create "shl_lsn_rep" depth
    closeReplies := ← Fifo.create "shl_cls_rep" depth
    data := ← Fifo.create "shl_data" depth
    headers := ← Fifo.create "shl_meta" depth
    appData := ← Fifo.create "uaf_data" depth
    appHeaders := ← Fifo.create "uaf_meta" depth
    appLengths := ← Fifo.create "uaf_dlen" depth }

structure Egress where
  listenRequests : Fifo Port
  closeRequests : Fifo Port
  data : Fifo Chunk
  headers : Fifo SocketPair
  lengths : Fifo UInt16
  appData : Fifo Chunk
  appHeaders : Fifo SocketPair
deriving DecidableEq, Repr

def Egress.create (depth : Nat) : Except Halt Egress := do
  return {
    listenRequests := ← Fifo.create "shl_lsn_req" depth
    closeRequests := ← Fifo.create "shl_cls_req" depth
    data := ← Fifo.create "shl_data" depth
    headers := ← Fifo.create "shl_meta" depth
    lengths := ← Fifo.create "shl_dlen" depth
    appData := ← Fifo.create "uaf_data" depth
    appHeaders := ← Fifo.create "uaf_meta" depth }

structure Network where
  listener : Listener
  closer : Closer
  receiver : Receiver
  transmitter : Transmitter
  testRequests : Fifo TestRequest
deriving DecidableEq, Repr

def Network.create (c : Config) : Except Halt Network := do
  return {
    listener := .create "USIF/LSn" c.listenPorts.ports c.listenWatchdog
    closer := .create c.closePort
    receiver := .create c.routes
    transmitter := .idle
    testRequests := ← Fifo.create "test_req" c.streamDepth }

structure Frame where
  net : Network
  i : Ingress
  o : Egress
deriving DecidableEq, Repr

namespace Frame

def listen (enable : Bool) (f : Frame) : Traced Frame := do
  let (listener, l) ← f.net.listener.tick enable {
    requests := f.o.listenRequests
    replies := f.i.listenReplies }
  return {
    net := { f.net with listener }
    i := { f.i with listenReplies := l.replies }
    o := { f.o with listenRequests := l.requests } }

def close (enable : Bool) (f : Frame) : Traced Frame := do
  let (closer, l) ← f.net.closer.tick enable {
    requests := f.o.closeRequests
    replies := f.i.closeReplies }
  return {
    net := { f.net with closer }
    i := { f.i with closeReplies := l.replies }
    o := { f.o with closeRequests := l.requests } }

def receive (enable : Bool) (f : Frame) : Traced Frame := do
  let (receiver, l) ← f.net.receiver.tick enable {
    headers := f.i.headers
    data := f.i.data
    appHeaders := f.o.appHeaders
    appData := f.o.appData
    testRequests := f.net.testRequests }
  return {
    net := { f.net with receiver, testRequests := l.testRequests }
    i := { f.i with headers := l.headers, data := l.data }
    o := { f.o with appHeaders := l.appHeaders, appData := l.appData } }

def transmit (enable : Bool) (f : Frame) : Traced Frame := do
  let (transmitter, l) ← f.net.transmitter.tick enable {
    appHeaders := f.i.appHeaders
    appLengths := f.i.appLengths
    appData := f.i.appData
    testRequests := f.net.testRequests
    headers := f.o.headers
    lengths := f.o.lengths
    data := f.o.data }
  return {
    net := { f.net with transmitter, testRequests := l.testRequests }
    i := { f.i with
      appHeaders := l.appHeaders
      appLengths := l.appLengths
      appData := l.appData }
    o := { f.o with headers := l.headers, lengths := l.lengths, data := l.data } }

def cycle (enable : Bool) (f : Frame) : Traced Frame :=
  f.listen enable >>= close enable >>= receive enable >>= transmit enable

end Frame

structure Interface where
  net : Network
  ledger : Ledger
deriving DecidableEq, Repr

namespace Interface

def create (c : Config) : Except SetupError Interface := do
  c.validate.mapError .config
  let net ← (Network.create c).mapError .halt
  let ledger ← (Ledger.create c.faultHistory).mapError .halt
  return { net, ledger }

def step (x : Interface) (enable : Bool) (i : Ingress) (o : Egress) :
    Traced (Interface × Ingress × Egress) :=
  let t := Frame.cycle enable { net := x.net, i, o }
  { notes := t.notes
    outcome := do
      let f ← t.outcome
      return ({ net := f.net, ledger := ← x.ledger.close t.notes }, f.i, f.o) }

end Interface

end ShellInterface.Udp
