import ShellInterface.Size
import ShellInterface.Fifo
import ShellInterface.TestPattern
import ShellInterface.Report.Traced

namespace ShellInterface.Tcp

inductive Transmitter.Phase
  | idle
  | request
  | await
  | appData
  | testData (pattern : TestPattern)
  | drain
deriving DecidableEq, Repr

structure Transmitter where
  phase : Transmitter.Phase
  requester : Requester
  -- The request in hand.
  request : SendRequest
  -- How often the request may still be made.
  retries : Nat
  -- How often a request may be made at all.
  budget : Nat
deriving DecidableEq, Repr

namespace Transmitter

structure Links where
  appRequests : Fifo SendRequest
  appData : Fifo Chunk
  testRequests : Fifo SendRequest
  replies : Fifo SendReply
  requests : Fifo SendRequest
  data : Fifo Chunk
deriving DecidableEq, Repr

def origin : String := "TSIF/WRp"

-- At least one request is made for each transfer.
def create (budget : Nat) : Transmitter :=
  ⟨.idle, .app, ⟨0, 0⟩, max 1 budget, max 1 budget⟩

def isIdle (t : Transmitter) : Bool :=
  t.phase == .idle

def accept (t : Transmitter) : Traced Transmitter := do
  .remark origin (.sendAccepted t.requester t.request.session t.request.length)
  return { t with retries := t.budget, phase := .request }

-- Takes the next request, if there is one. A request of the application has data behind it, which
-- is drained when the request is refused.
def idle (t : Transmitter) (enable : Bool) (l : Links) : Traced (Transmitter × Links) := do
  if !l.appRequests.isEmpty then
    let (request, appRequests) ← l.appRequests.read
    let t := { t with request, requester := .app }
    let l := { l with appRequests }
    if enable then
      return (← t.accept, l)
    else
      .remark origin (.streamDiscarded request.session request.length)
      return ({ t with phase := .drain }, l)
  else if !l.testRequests.isEmpty then
    let (request, testRequests) ← l.testRequests.read
    let t := { t with request, requester := .test }
    let l := { l with testRequests }
    if enable then
      return (← t.accept, l)
    else
      .remark origin (.testIgnored request.session)
      return (t, l)
  else
    return (t, l)

def ask (t : Transmitter) (l : Links) : Traced (Transmitter × Links) := do
  if l.requests.isFull then
    return (t, l)
  else
    let requests ← l.requests.write t.request
    .count .sendRequests
    return ({ t with phase := .await }, { l with requests })

def abandon (t : Transmitter) (f : Fault) : Traced Transmitter := do
  .fault origin f
  .count .abandonedSends
  match t.requester with
  | .app  => return { t with phase := .drain }
  | .test => return { t with phase := .idle }

def follow (t : Transmitter) (reply : SendReply) : Traced Transmitter := do
  match SendVerdict.ofCode? reply.code with
  | some .granted =>
    match t.requester with
    | .app  => return { t with phase := .appData }
    | .test => return { t with phase := .testData (.create t.request.length.toNat) }
  | some .noSpace =>
    let retries ← Size.sub t.retries 1
    let t := { t with retries }
    if retries = 0 then
      t.abandon (.sendRetriesExhausted t.request.session t.budget)
    else
      .remark origin (.retrying reply.session reply.space)
      .count .sendRetries
      return { t with phase := .request }
  | some .noConnection =>
    t.abandon (.noConnection t.request.session)
  | none =>
    t.abandon (.unknownSendReply reply.session reply.code)

-- The answer is awaited without a limit.
def await (t : Transmitter) (l : Links) : Traced (Transmitter × Links) := do
  if l.replies.isEmpty then
    return (t, l)
  else
    let (reply, replies) ← l.replies.read
    return (← t.follow reply, { l with replies })

def sendApp (t : Transmitter) (l : Links) : Traced (Transmitter × Links) := do
  if l.appData.isEmpty || l.data.isFull then
    return (t, l)
  else
    let (chunk, appData) ← l.appData.read
    let data ← l.data.write chunk
    .count .appChunks
    return (if chunk.last then { t with phase := .idle } else t, { l with appData, data })

def sendTest (t : Transmitter) (pattern : TestPattern) (l : Links) :
    Traced (Transmitter × Links) := do
  if l.data.isFull then
    return (t, l)
  else
    match pattern.next? with
    | some (chunk, rest) =>
      let data ← l.data.write chunk
      .add .testBytes (.ofNat chunk.length)
      if chunk.last then
        .remark origin (.testSent t.request.session t.request.length)
        return ({ t with phase := .idle }, { l with data })
      else
        return ({ t with phase := .testData rest }, { l with data })
    | none => return ({ t with phase := .idle }, l)

-- Discards the data of a refused request, up to its end mark.
def drain (t : Transmitter) (l : Links) : Traced (Transmitter × Links) := do
  if l.appData.isEmpty then
    return (t, l)
  else
    let (chunk, appData) ← l.appData.read
    return (if chunk.last then { t with phase := .idle } else t, { l with appData })

def tick (t : Transmitter) (enable : Bool) (l : Links) : Traced (Transmitter × Links) :=
  match t.phase with
  | .idle             => t.idle enable l
  | .request          => t.ask l
  | .await            => t.await l
  | .appData          => t.sendApp l
  | .testData pattern => t.sendTest pattern l
  | .drain            => t.drain l

end Transmitter

end ShellInterface.Tcp
