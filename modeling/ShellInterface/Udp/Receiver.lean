import ShellInterface.Fifo
import ShellInterface.Report.Traced
import ShellInterface.Udp.Message

namespace ShellInterface.Udp

inductive Receiver.Phase
  | readHeader
  | forwardHeader (sockets : SocketPair)
  | data (keep : Bool)
  | extractLength (sockets : SocketPair)
deriving DecidableEq, Repr

structure Receiver where
  phase : Receiver.Phase
  routes : RoutingTable
deriving DecidableEq, Repr

namespace Receiver

structure Links where
  headers : Fifo SocketPair
  data : Fifo Chunk
  appHeaders : Fifo SocketPair
  appData : Fifo Chunk
  testRequests : Fifo TestRequest
deriving DecidableEq, Repr

def origin : String := "USIF/RDp"

def create (routes : RoutingTable) : Receiver :=
  ⟨.readHeader, routes⟩

def dispatch (r : Receiver) (enable : Bool) (sockets : SocketPair) : Traced Phase := do
  let route := r.routes.lookup sockets.dst.port
  if !enable then
    .remark origin (.datagramDiscarded sockets)
    return .data false
  else
    match route.action, route.dropCode with
    | .keep, _ => return .forwardHeader sockets
    | .drop, .nop =>
      .remark origin (.receiveTest sockets.dst.port)
      return .data false
    | .drop, .gen =>
      .remark origin (.transmitTest sockets.dst.port)
      return .extractLength sockets

def readHeader (r : Receiver) (enable : Bool) (l : Links) : Traced (Receiver × Links) := do
  if l.headers.isEmpty then
    return (r, l)
  else
    let (sockets, headers) ← l.headers.read
    return ({ r with phase := ← r.dispatch enable sockets }, { l with headers })

def forwardHeader (r : Receiver) (sockets : SocketPair) (l : Links) :
    Traced (Receiver × Links) := do
  if l.appHeaders.isFull then
    return (r, l)
  else
    let appHeaders ← l.appHeaders.write sockets
    .count .forwardedStreams
    return ({ r with phase := .data true }, { l with appHeaders })

def passOn (keep : Bool) (chunk : Chunk) (l : Links) : Traced Links := do
  if keep then
    let appData ← l.appData.write chunk
    .count .forwardedChunks
    return { l with appData }
  else
    .count .droppedChunks
    return l

def moveData (r : Receiver) (keep : Bool) (l : Links) : Traced (Receiver × Links) := do
  if l.data.isEmpty || (keep && l.appData.isFull) then
    return (r, l)
  else
    let (chunk, data) ← l.data.read
    let l ← passOn keep chunk { l with data }
    return (if chunk.last then { r with phase := .readHeader } else r, l)

def handOver (sockets : SocketPair) (chunk : Chunk) (l : Links) : Traced Links := do
  if chunk.length < 2 then
    .fault origin (.malformedRecord chunk.length)
    return l
  else
    let length := UInt16.ofNat (BigEndian.decode (chunk.data.take 2))
    if length = 0 then
      .fault origin (.zeroLengthTestRequest sockets.src)
      return l
    else
      .remark origin (.datagramRequested length sockets.src)
      let testRequests ← l.testRequests.write ⟨sockets.swapped, length⟩
      .count .controlRecords
      return { l with testRequests }

def extractLength (r : Receiver) (sockets : SocketPair) (l : Links) :
    Traced (Receiver × Links) := do
  if l.data.isEmpty || l.testRequests.isFull then
    return (r, l)
  else
    let (chunk, data) ← l.data.read
    .count .droppedChunks
    let l ← handOver sockets chunk { l with data }
    return ({ r with phase := if chunk.last then .readHeader else .data false }, l)

def tick (r : Receiver) (enable : Bool) (l : Links) : Traced (Receiver × Links) :=
  match r.phase with
  | .readHeader            => r.readHeader enable l
  | .forwardHeader sockets => r.forwardHeader sockets l
  | .data keep             => r.moveData keep l
  | .extractLength sockets => r.extractLength sockets l

end Receiver

end ShellInterface.Udp
