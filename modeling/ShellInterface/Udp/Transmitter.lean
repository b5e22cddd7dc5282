import ShellInterface.Fifo
import ShellInterface.TestPattern
import ShellInterface.Report.Traced
import ShellInterface.Udp.Message

namespace ShellInterface.Udp

inductive Transmitter
  | idle
  | app
  | test (pattern : TestPattern)
  | discard
deriving DecidableEq, Repr

namespace Transmitter

structure Links where
  appHeaders : Fifo SocketPair
  appLengths : Fifo UInt16
  appData : Fifo Chunk
  testRequests : Fifo TestRequest
  headers : Fifo SocketPair
  lengths : Fifo UInt16
  data : Fifo Chunk
deriving DecidableEq, Repr

def origin : String := "USIF/WRp"

def isIdle (t : Transmitter) : Bool :=
  t matches .idle

-- The caller has seen to it that there is room for both parts.
def writeHeader (sockets : SocketPair) (length : UInt16) (l : Links) : Traced Links := do
  let headers ← l.headers.write sockets
  let lengths ← l.lengths.write length
  return { l with headers, lengths }

def startApp (enable : Bool) (l : Links) : Traced (Transmitter × Links) := do
  let (sockets, appHeaders) ← l.appHeaders.read
  let (length, appLengths) ← l.appLengths.read
  let l := { l with appHeaders, appLengths }
  if enable then
    .remark origin (.appDatagram length sockets)
    return (.app, ← writeHeader sockets length l)
  else
    .remark origin (.appDatagramDiscarded length sockets.dst)
    return (.discard, l)

def startTest (enable : Bool) (l : Links) : Traced (Transmitter × Links) := do
  let (request, testRequests) ← l.testRequests.read
  let l := { l with testRequests }
  if enable then
    .remark origin (.testDatagram request.length request.sockets)
    return (.test (.create request.length.toNat), ← writeHeader request.sockets request.length l)
  else
    .remark origin (.testDatagramIgnored request.length)
    return (.idle, l)

-- A datagram is taken up once its header can be written, or at once if it is to be discarded.
def start (enable : Bool) (l : Links) : Traced (Transmitter × Links) := do
  let ready := !enable || (!l.headers.isFull && !l.lengths.isFull)
  if !l.appHeaders.isEmpty && !l.appLengths.isEmpty && ready then
    startApp enable l
  else if !l.testRequests.isEmpty && ready then
    startTest enable l
  else
    return (.idle, l)

def sendApp (l : Links) : Traced (Transmitter × Links) := do
  if l.appData.isEmpty || l.data.isFull then
    return (.app, l)
  else
    let (chunk, appData) ← l.appData.read
    let data ← l.data.write chunk
    .count .appChunks
    return (if chunk.last then .idle else .app, { l with appData, data })

def sendTest (pattern : TestPattern) (l : Links) : Traced (Transmitter × Links) := do
  if l.data.isFull then
    return (.test pattern, l)
  else
    match pattern.next? with
    | some (chunk, rest) =>
      let data ← l.data.write chunk
      .add .testBytes (.ofNat chunk.length)
      return (if chunk.last then .idle else .test rest, { l with data })
    | none => return (.idle, l)

def drain (l : Links) : Traced (Transmitter × Links) := do
  if l.appData.isEmpty then
    return (.discard, l)
  else
    let (chunk, appData) ← l.appData.read
    return (if chunk.last then .idle else .discard, { l with appData })

def tick (t : Transmitter) (enable : Bool) (l : Links) : Traced (Transmitter × Links) :=
  match t with
  | .idle         => start enable l
  | .app          => sendApp l
  | .test pattern => sendTest pattern l
  | .discard      => drain l

end Transmitter

end ShellInterface.Udp
